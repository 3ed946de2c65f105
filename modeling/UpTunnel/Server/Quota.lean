import Mathlib.Data.Finset.Card
import UpTunnel.Server.Ports

/-!
# UpTunnel.Server.Quota

`maxTunnels`, the cap on the tunnels of a token. `open` compares it with the tunnels that the one
session has registered, before the bind; what counts is the tunnels of all sessions of the token, after
their binds. So `open` misses those that are registered elsewhere, and those whose bind is under way.

* `usedBy_step`: an event records one tunnel of the token of the session that `records` gives, or none.
* `heldBy_step`: a request that gets past the checks adds one to what the token has or is about to have.
* `capped_run`: the cap holds in every run in which such a request finds room for what `open` misses too.
* `not_capped`: two binds at a time.
-/

namespace UpTunnel

open Js

namespace Relay

/-! ## The tunnels of a token -/

def tokenOf (s : Relay) (t : Nat) : Option TokenEntry :=
  (s.agentOf t).bind fun a => s.agents[a]?.map (·.token)

/-- How many registered tunnels belong to sessions of the token. -/
def usedBy (s : Relay) (token : TokenEntry) : Nat := s.byId.values.countP fun t => s.tokenOf t = some token

def cap (token : TokenEntry) : Js.Num := token.maxTunnels.getD (.fin DEFAULT_MAX_TUNNELS)

/-- `n <= x` -/
def Within (n : Nat) : Js.Num → Prop
  | .nan => False
  | .inf negative => negative = false
  | .fin q => (n : ℚ) ≤ q

instance : ∀ (n : Nat) (x : Js.Num), Decidable (Within n x)
  | _, .nan => inferInstanceAs (Decidable False)
  | _, .inf negative => inferInstanceAs (Decidable (negative = false))
  | n, .fin q => inferInstanceAs (Decidable ((n : ℚ) ≤ q))

/-- The cap of every configured token holds. -/
def Capped (cfg : Config) (s : Relay) : Prop := ∀ token ∈ cfg.tokens, Within (s.usedBy token) (cap token)

/-! ## What `open` does not count -/

/-- The bind of `t` may still succeed, or has, and `open` has not gone on. -/
def Underway (s : Relay) (t : Nat) : Prop :=
  s.opening.lookup t = some .waiting ∨ s.opening.lookup t = some .listening

instance (s : Relay) (t : Nat) : Decidable (s.Underway t) := inferInstanceAs (Decidable (_ ∨ _))

def underway (s : Relay) : Finset Nat := s.opening.keys.toFinset.filter s.Underway

/-- The tunnels of the token that are being bound. -/
def underwayOf (s : Relay) (token : TokenEntry) : Finset Nat := s.underway.filter fun t => s.tokenOf t = some token

/-- How many tunnels the sessions of the token have registered, other than the session `a`. -/
def elsewhere (s : Relay) (a : Nat) (token : TokenEntry) : Nat :=
  s.byId.values.countP fun t => s.tokenOf t = some token ∧ s.agentOf t ≠ some a

/-- The checks of `open`, for the session `r`: it is below the cap, and the name or a port is there for it. -/
def Grants (cfg : Config) (s : Relay) (r : Registrant) : Ask → Prop
  | .http sub => BelowCap r ∧ subdomainAllowed r.token.subdomains sub.val = true ∧ s.bySubdomain.lookup sub.val = none
  | .tcp remotePort => BelowCap r ∧ (s.claimPort cfg r.token remotePort).toOption.isSome = true

instance (cfg : Config) (s : Relay) (r : Registrant) : ∀ ask, Decidable (Grants cfg s r ask)
  | .http _ => inferInstanceAs (Decidable (_ ∧ _ ∧ _))
  | .tcp _ => inferInstanceAs (Decidable (_ ∧ _))

/-- A request that gets past the checks of `open` is within the cap also where the tunnels of the token that
are registered elsewhere, and those being bound, are counted in. -/
def Roomy (cfg : Config) (s : Relay) : Event → Prop
  | .openTunnel a req _ => ∀ r ∈ s.agents[a]?, r.token ∈ cfg.tokens → Grants cfg s r req.ask →
      Within (r.tunnels.size + s.elsewhere a r.token + (s.underwayOf r.token).card + 1) (cap r.token)
  | _ => True

instance (cfg : Config) (s : Relay) : ∀ e, Decidable (s.Roomy cfg e)
  | .openTunnel a req _ =>
    match h : s.agents[a]? with
    | none => isTrue fun r hr => by simp [h] at hr
    | some r =>
      decidable_of_iff (r.token ∈ cfg.tokens → Grants cfg s r req.ask →
          Within (r.tunnels.size + s.elsewhere a r.token + (s.underwayOf r.token).card + 1) (cap r.token))
        (by simp [Roomy, h])
  | .connect .. | .listening .. | .listenError .. | .resume .. => isTrue trivial
  | .closeTunnel .. | .close .. | .closeAllFor .. | .destroy .. => isTrue trivial

/-- The steps of a run with fresh ids in which every request finds room. -/
def InRoom (cfg : Config) (s : Relay) (e : Event) : Prop := s.FreshId e ∧ s.Roomy cfg e

instance (cfg : Config) (s : Relay) (e : Event) : Decidable (s.InRoom cfg e) := inferInstanceAs (Decidable (_ ∧ _))

/-- `open` misses nothing: no tunnel of the token is registered elsewhere, and none is being bound. -/
def Alone (s : Relay) (a : Nat) (token : TokenEntry) : Prop := s.elsewhere a token = 0 ∧ s.underwayOf token = ∅

/-- The tunnels that the token has, or is about to have. -/
def heldBy (s : Relay) (token : TokenEntry) : Nat := s.usedBy token + (s.underwayOf token).card

theorem Within.mono {m n : Nat} {x : Js.Num} (h : Within n x) (hmn : m ≤ n) : Within m x := by
  cases x with
  | nan => exact h
  | inf negative => exact h
  | fin q =>
    have hq : (m : ℚ) ≤ n := by exact_mod_cast hmn
    exact le_trans hq h

section
variable {cfg : Config} {s s' : Relay} {t u : Nat} {e : Event}

theorem tokenOf_known (hI : s.Inv) (hu : s.Live u ∨ s.Pending u) :
    ∃ a r, s.agentOf u = some a ∧ s.agents[a]? = some r ∧ s.tokenOf u = some r.token := by
  obtain ⟨tn, ht⟩ : ∃ tn, s.tunnels[u]? = some tn := ⟨_, List.getElem?_eq_getElem (known_lt hI hu)⟩
  have hag : s.agentOf u = some tn.agent := by simp [agentOf, ht]
  have hr := List.getElem?_eq_getElem (hI.owned u _ hag)
  exact ⟨_, _, hag, hr, by simp [tokenOf, hag, hr]⟩

/-- A tunnel that is registered or being bound keeps its token. -/
theorem tokenOf_step (hI : s.Inv) (hs : step cfg s e = some s') (hu : s.Live u ∨ s.Pending u) :
    s'.tokenOf u = s.tokenOf u := by
  obtain ⟨a, r, hag, hr, htok⟩ := tokenOf_known hI hu
  have hkeep : s'.agentOf u = some a ∧ ∃ r', s'.agents[a]? = some r' ∧ r'.token = r.token := by
    rcases step_frame hs with ⟨b, req, id, r0, rfl, hr0, hb⟩ | hf
    · have hne : u ≠ s.tunnels.length := by
        have := known_lt hI hu
        omega
      have hold : ∀ tn, (s.tunnels ++ [tn])[u]?.map Tunnel.agent = some a := fun tn => by
        rw [getElem?_concat, if_neg hne]
        exact hag
      obtain ⟨_, ⟨sub, tn, _, _, _, _, rfl⟩ | ⟨remotePort, port, hint, tn, _, _, _, rfl⟩⟩ := begin_cases hb
      · refine ⟨hold tn, token_modify rfl ?_ a r hr⟩
        exact fun _ => rfl
      · exact ⟨hold tn, r, hr, rfl⟩
    · exact ⟨by rw [hf.same.agentOf]; exact hag, hf.agents a r hr⟩
  obtain ⟨hag', r', hr', htok'⟩ := hkeep
  rw [htok, tokenOf, hag', Option.bind_some, hr', Option.map_some, htok']

/-- An event that records no tunnel. -/
theorem values_step (hI : s.Inv) (hrec : s.records e = none) (hs : step cfg s e = some s') :
    s'.byId.values.Sublist s.byId.values := by
  cases e with
  | connect token clientName =>
    cases hs
    exact .refl _
  | openTunnel a req id =>
    obtain ⟨r, hr, rfl⟩ := Option.map_eq_some_iff.mp hs
    cases hb : s.begin cfg a r req id with
    | error e => exact .refl _
    | ok s' =>
      obtain ⟨hcap, ⟨sub, tn, hask, _, hall, hfree, rfl⟩ | ⟨remotePort, port, hint, tn, _, _, _, rfl⟩⟩ :=
        begin_cases hb
      · simp [records, hr, hask, hcap, hall, hfree] at hrec
      · exact .refl _
  | listening t | listenError t message =>
    simp only [step] at hs
    split at hs
    · cases hs
      exact .refl _
    · cases hs
  | resume t =>
    simp only [step] at hs
    split at hs
    · rename_i b tn ho ht
      obtain ⟨⟨s1, e⟩, hr, rfl⟩ := Option.map_eq_some_iff.mp hs
      cases b with
      | waiting => cases hr
      | listening =>
        have hlt := hI.owned t tn.agent (by simp [agentOf, ht])
        simp [records, ho, ht, List.getElem?_eq_getElem hlt] at hrec
      | failed message =>
        cases hr
        exact .refl _
    · cases hs
  | closeTunnel a id =>
    obtain ⟨r, hr, rfl⟩ := Option.map_eq_some_iff.mp hs
    simp only [closeTunnel]
    split
    · exact .refl _
    · exact (Closes.close s _).values
  | close t =>
    cases hs
    exact (Closes.close s t).values
  | closeAllFor a =>
    obtain ⟨r, hr, rfl⟩ := Option.map_eq_some_iff.mp hs
    exact (Closes.closeAll s _).values
  | destroy a =>
    obtain ⟨r, hr, rfl⟩ := Option.map_eq_some_iff.mp hs
    simp only [destroy]
    split
    · exact .refl _
    · exact (Closes.closeAll _ _).values

theorem usedBy_le (hI : s.Inv) (hs : step cfg s e = some s') (hv : s'.byId.values.Sublist s.byId.values)
    (token : TokenEntry) : s'.usedBy token ≤ s.usedBy token := by
  have hsame : ∀ u ∈ s.byId.values, s'.tokenOf u = s.tokenOf u := fun u hu =>
    tokenOf_step hI hs (.inl (Dict.mem_values.mp hu))
  calc s'.byId.values.countP (fun t => s'.tokenOf t = some token)
      ≤ s.byId.values.countP (fun t => s'.tokenOf t = some token) := hv.countP_le
    _ = s.usedBy token := List.countP_congr fun u hu => by rw [hsame u hu]

/-- An event records one tunnel of the token of the session that `records` gives, or none. -/
theorem usedBy_step (hI : s.Inv) (hid : s.FreshId e) (hs : step cfg s e = some s') (token : TokenEntry) :
    (∀ r, s.records e = some r → s'.usedBy token = s.usedBy token + if r.token = token then 1 else 0) ∧
      (s.records e = none → s'.usedBy token ≤ s.usedBy token) := by
  refine ⟨fun r hrec => ?_, fun hrec => usedBy_le hI hs (values_step hI hrec hs) token⟩
  obtain ⟨t, tn, hr, ht, hf, hby, hmod⟩ := step_records hI hid hs hrec
  have hvalues : s'.byId.values = t :: s.byId.values := by
    rw [hby, Dict.values, AList.entries_insert_of_notMem (AList.lookup_eq_none.mp hf)]
    rfl
  have htok : s'.tokenOf t = some r.token := by
    simp [tokenOf, agentOf, ht, hmod, hr]
  have hold : s.byId.values.countP (fun u => s'.tokenOf u = some token) = s.usedBy token :=
    List.countP_congr fun u hu => by rw [tokenOf_step hI hs (.inl (Dict.mem_values.mp hu))]
  rw [usedBy, hvalues, List.countP_cons, hold, htok]
  simp

/-! ## The tunnels that a token is about to have -/

theorem mem_underway : t ∈ s.underway ↔ s.Underway t := by
  simp only [underway, Finset.mem_filter, List.mem_toFinset, and_iff_right_iff_imp]
  rintro (h | h) <;> exact AList.lookup_isSome.mp (by rw [h]; rfl)

theorem Underway.pending (h : s.Underway t) : s.Pending t :=
  AList.mem_keys.mpr (List.mem_toFinset.mp (Finset.mem_filter.mp (mem_underway.mpr h)).1)

theorem mem_underwayOf {token : TokenEntry} : t ∈ s.underwayOf token ↔ s.Underway t ∧ s.tokenOf t = some token := by
  rw [underwayOf, Finset.mem_filter, mem_underway]

/-- Binds that stay under way stay those of their token. -/
theorem mem_underwayOf_step {token : TokenEntry} (hI : s.Inv) (hs : step cfg s e = some s') (hu : s.Underway u) :
    u ∈ s'.underwayOf token ↔ s'.Underway u ∧ u ∈ s.underwayOf token := by
  rw [mem_underwayOf, mem_underwayOf, tokenOf_step hI hs (.inr hu.pending)]
  tauto

theorem usedBy_same (hI : s.Inv) (hs : step cfg s e = some s') (hb : s'.byId = s.byId) (token : TokenEntry) :
    s'.usedBy token = s.usedBy token := by
  rw [usedBy, hb]
  exact List.countP_congr fun u hu => by rw [tokenOf_step hI hs (.inl (Dict.mem_values.mp hu))]

theorem exists_begin_iff {a : Nat} {r : Registrant} {req : OpenTunnelRequest} {id : String} :
    (∃ s', s.begin cfg a r req id = .ok s') ↔ Grants cfg s r req.ask := by
  constructor
  · rintro ⟨s', hb⟩
    obtain ⟨hcap, ⟨sub, tn, hask, -, hall, hfree, -⟩ | ⟨remotePort, port, hint, tn, hask, hc, -, -⟩⟩ := begin_cases hb
    · rw [hask]
      exact ⟨hcap, hall, hfree⟩
    · rw [hask]
      exact ⟨hcap, by rw [hc]; rfl⟩
  · obtain ⟨reqId, ask, target⟩ := req
    cases ask with
    | http sub =>
      rintro ⟨hcap, hall, hfree⟩
      exact ⟨_, by simp [Relay.begin, show numLe _ _ = false from hcap, hall, hfree]; rfl⟩
    | tcp remotePort =>
      rintro ⟨hcap, hc⟩
      obtain ⟨⟨port, hint⟩, hc⟩ := Option.isSome_iff_exists.mp hc
      exact ⟨_, by simp [Relay.begin, show numLe _ _ = false from hcap, toOption_eq_some.mp hc]; rfl⟩

/-- The session whose request gets past the checks. -/
def accepted (cfg : Config) (s : Relay) : Event → Option Registrant
  | .openTunnel a req _ => s.agents[a]?.filter fun r => Grants cfg s r req.ask
  | _ => none

/-- The bind of a tunnel under way is over, and the tunnel recorded. -/
theorem heldBy_resume (hI : s.Inv) (hs : step cfg s (.resume t) = some s')
    (ho : s.opening.lookup t = some .listening) (token : TokenEntry) :
    s'.heldBy token = s.heldBy token ∧ s'.underway = s.underway.erase t := by
  have hu : s.Underway t := .inr ho
  obtain ⟨a, r, hag, hr, htok⟩ := tokenOf_known hI (.inr hu.pending)
  obtain ⟨tn, htn, rfl⟩ := Option.map_eq_some_iff.mp hag
  have hused := (usedBy_step (e := .resume t) hI trivial hs token).1 r (by simp [records, ho, htn, hr])
  have hopening : s'.opening = s.opening.erase t := by
    simp only [step, ho, htn, resume, Option.map_some, Option.some.injEq] at hs
    rw [← hs]
    rfl
  have hunderway : s'.underway = s.underway.erase t := by
    ext u
    simp only [Finset.mem_erase, mem_underway, Underway, hopening, Dict.lookup_erase_ite]
    by_cases hut : u = t <;> simp [hut]
  refine ⟨?_, hunderway⟩
  have herase : s'.underwayOf token = (s.underwayOf token).erase t := by
    ext u
    by_cases hut : s.Underway u
    · rw [mem_underwayOf_step hI hs hut, ← mem_underway, hunderway, Finset.mem_erase, Finset.mem_erase, mem_underway]
      tauto
    · have hut' : ¬ s'.Underway u := by
        rw [← mem_underway, hunderway, Finset.mem_erase, mem_underway]
        tauto
      simp [mem_underwayOf, hut, hut']
  rw [heldBy, heldBy, hused, herase]
  by_cases hrt : r.token = token
  · have hm : t ∈ s.underwayOf token := mem_underwayOf.mpr ⟨hu, by rw [htok, hrt]⟩
    have := Finset.card_erase_add_one hm
    simp only [hrt, if_true]
    omega
  · have hm : t ∉ s.underwayOf token := fun h => hrt (Option.some.inj (htok.symm.trans (mem_underwayOf.mp h).2))
    rw [Finset.erase_eq_of_notMem hm, if_neg hrt, Nat.add_zero]

/-- Where no request gets past the checks, no bind is started. -/
theorem underway_step (hs : step cfg s e = some s') (hacc : s.accepted cfg e = none) (hu : s'.Underway u) :
    s.Underway u := by
  have hopening : s'.opening = s.opening → s.Underway u := fun h => by
    rwa [Underway, h] at hu
  cases e with
  | connect token clientName =>
    cases hs
    exact hopening rfl
  | openTunnel a req id =>
    obtain ⟨r, hr, rfl⟩ := Option.map_eq_some_iff.mp hs
    cases hb : s.begin cfg a r req id with
    | error e => exact hopening (by rw [hb])
    | ok s' =>
      have hg : Grants cfg s r req.ask := exists_begin_iff.mp ⟨s', hb⟩
      simp [accepted, hr, hg] at hacc
  | listening t =>
    simp only [step, Option.ite_none_right_eq_some, Option.some.injEq] at hs
    obtain ⟨ho, rfl⟩ := hs
    simp only [Underway, listening, Dict.lookup_insert_ite] at hu
    by_cases hut : u = t
    · exact .inl (hut ▸ ho)
    · simpa [hut, Underway] using hu
  | listenError t message =>
    simp only [step, Option.ite_none_right_eq_some, Option.some.injEq] at hs
    obtain ⟨-, rfl⟩ := hs
    simp only [Underway, listenError, Dict.lookup_insert_ite] at hu
    by_cases hut : u = t
    · simp [hut] at hu
    · simpa [hut, Underway] using hu
  | resume t =>
    have herase : ∀ {m : Dict Nat Bind}, m = s.opening.erase t → s'.opening = m → s.Underway u := by
      rintro _ rfl h
      simp only [Underway, h, Dict.lookup_erase_ite] at hu
      by_cases hut : u = t
      · simp [hut] at hu
      · simpa [hut, Underway] using hu
    simp only [step] at hs
    split at hs
    · rename_i b tn ho ht
      obtain ⟨⟨s1, e⟩, hr, rfl⟩ := Option.map_eq_some_iff.mp hs
      cases b with
      | waiting => cases hr
      | listening | failed =>
        cases hr
        exact herase rfl rfl
    · cases hs
  | closeTunnel a id =>
    obtain ⟨r, hr, rfl⟩ := Option.map_eq_some_iff.mp hs
    simp only [closeTunnel] at hopening
    split at hopening
    · exact hopening rfl
    · exact hopening (Closes.close s _).opening
  | close t =>
    cases hs
    exact hopening (Closes.close s t).opening
  | closeAllFor a =>
    obtain ⟨r, hr, rfl⟩ := Option.map_eq_some_iff.mp hs
    exact hopening (Closes.closeAll s _).opening
  | destroy a =>
    obtain ⟨r, hr, rfl⟩ := Option.map_eq_some_iff.mp hs
    simp only [destroy] at hopening
    split at hopening
    · exact hopening rfl
    · exact hopening (Closes.closeAll _ _).opening

/-- A request that gets past the checks adds one tunnel to those of its token. -/
theorem heldBy_accepted {r : Registrant} (hI : s.Inv) (hid : s.FreshId e) (hs : step cfg s e = some s')
    (hacc : s.accepted cfg e = some r) (token : TokenEntry) :
    s'.heldBy token = s.heldBy token + if r.token = token then 1 else 0 := by
  cases e with
  | openTunnel a req id =>
    obtain ⟨hr, hg⟩ := Option.filter_eq_some_iff.mp hacc
    have hg : Grants cfg s r req.ask := of_decide_eq_true hg
    have hb : s.begin cfg a r req id = .ok s' := by
      obtain ⟨s1, hb⟩ := exists_begin_iff.mpr hg
      obtain ⟨r', hr', hs'⟩ := Option.map_eq_some_iff.mp hs
      cases hr.symm.trans hr'
      rw [hb] at hs'
      rw [hb, ← hs']
    obtain ⟨-, ⟨sub, tn, hask, rfl, hall, hfree, he⟩ | ⟨remotePort, port, hint, tn, hask, -, rfl, he⟩⟩ :=
      begin_cases hb
    · -- an http tunnel is recorded at once
      have hrec : s.records (.openTunnel a req id) = some r := by
        rw [hask] at hg
        simp [records, hr, hask, hg.1, hall, hfree]
      have hopening : s'.opening = s.opening := by
        rw [he]
        rfl
      have hsame : s'.underwayOf token = s.underwayOf token := by
        ext u
        by_cases hut : s.Underway u
        · rw [mem_underwayOf_step hI hs hut, Underway, hopening]
          exact and_iff_right hut
        · have hut' : ¬ s'.Underway u := by rwa [Underway, hopening]
          simp [mem_underwayOf, hut, hut']
      rw [heldBy, heldBy, hsame, (usedBy_step hI hid hs token).1 r hrec]
      omega
    · -- the bind of a tcp tunnel is started
      have hlast : ¬ s.Pending s.tunnels.length := fun h => absurd (known_lt hI (.inr h)) (Nat.lt_irrefl _)
      have htok : s'.tokenOf s.tunnels.length = some r.token := by
        rw [he]
        simp [tokenOf, agentOf, hr]
      have hopening : s'.opening = s.opening.insert s.tunnels.length .waiting := by rw [he]
      have hunderway : ∀ u, s'.Underway u ↔ u = s.tunnels.length ∨ s.Underway u := fun u => by
        simp only [Underway, hopening, Dict.lookup_insert_ite]
        by_cases hu : u = s.tunnels.length <;> simp [hu]
      have hinsert : s'.underwayOf token =
          if r.token = token then insert s.tunnels.length (s.underwayOf token) else s.underwayOf token := by
        ext u
        by_cases hut : s.Underway u
        · rw [mem_underwayOf_step hI hs hut, hunderway]
          have hne : u ≠ s.tunnels.length := fun hu => hlast (hu ▸ hut.pending)
          split <;> simp [hut, hne]
        · have hno : u ∉ s.underwayOf token := fun h => hut (mem_underwayOf.mp h).1
          rw [mem_underwayOf, hunderway]
          by_cases hu : u = s.tunnels.length
          · subst hu
            simp only [htok, true_or, true_and, Option.some.injEq]
            split
            · rename_i hrt
              simp [hrt]
            · rename_i hrt
              simp [hrt, hno]
          · split <;> simp [hut, hu, hno]
      have hnew : s.tunnels.length ∉ s.underwayOf token := fun h => hlast (mem_underwayOf.mp h).1.pending
      have hused : s'.usedBy token = s.usedBy token := usedBy_same hI hs (by rw [he]) token
      rw [heldBy, heldBy, hused, hinsert]
      split
      · rw [Finset.card_insert_of_notMem hnew, Nat.add_assoc]
      · rfl
  | _ => cases hacc

/-- Any other event adds none. -/
theorem heldBy_le (hI : s.Inv) (hid : s.FreshId e) (hs : step cfg s e = some s') (hacc : s.accepted cfg e = none)
    (token : TokenEntry) : s'.heldBy token ≤ s.heldBy token := by
  cases hrec : s.records e with
  | none =>
    refine Nat.add_le_add ((usedBy_step hI hid hs token).2 hrec) (Finset.card_le_card fun u hu => ?_)
    have hut := underway_step hs hacc (mem_underwayOf.mp hu).1
    exact ((mem_underwayOf_step hI hs hut).mp hu).2
  | some r =>
    cases e with
    | openTunnel a req id =>
      obtain ⟨reqId, ask, target⟩ := req
      cases ask with
      | tcp remotePort =>
        simp only [records] at hrec
        split at hrec
        · rename_i h
          cases h
        · cases hrec
      | http sub =>
        simp only [records] at hrec
        split at hrec
        · rename_i r0 sub' hr hask
          cases hask
          simp only [Option.ite_none_right_eq_some, Option.some.injEq] at hrec
          obtain ⟨hg, rfl⟩ := hrec
          have hg : Grants cfg s r0 (.http sub) := hg
          simp [accepted, hr, hg] at hacc
        · cases hrec
    | resume t =>
      simp only [records, Option.ite_none_right_eq_some] at hrec
      exact (heldBy_resume hI hs hrec.1 token).1.le
    | _ => cases hrec

/-- The tunnels of a token are those of one session and those elsewhere. -/
theorem usedBy_eq {a : Nat} {r : Registrant} (hI : s.Inv) (hr : s.agents[a]? = some r) :
    s.usedBy r.token = r.tunnels.size + s.elsewhere a r.token := by
  have hindex := hI.agents a r hr
  have hown : (s.byId.values.filter fun t => s.tokenOf t = some r.token ∧ s.agentOf t = some a).Perm
      r.tunnels.values := by
    rw [List.perm_ext_iff_of_nodup (hI.byId.nodup_values.filter _) hindex.nodup_values]
    intro t
    rw [List.mem_filter, hI.byId.mem_values_iff, hindex.mem_values_iff]
    simp only [decide_eq_true_eq]
    constructor
    · rintro ⟨⟨hl, hk⟩, -, ha⟩
      exact ⟨⟨hl, ha⟩, hk⟩
    · rintro ⟨⟨hl, ha⟩, hk⟩
      refine ⟨⟨hl, hk⟩, ?_, ha⟩
      simp [tokenOf, ha, hr]
  have hsplit := List.length_eq_length_filter_add (l := s.byId.values.filter fun t => s.tokenOf t = some r.token)
    fun t => s.agentOf t = some a
  have hsize : r.tunnels.size = r.tunnels.values.length := by simp [Dict.size, Dict.values]
  rw [usedBy, elsewhere, List.countP_eq_length_filter, List.countP_eq_length_filter, hsplit, hsize, ← hown.length_eq,
    List.filter_filter, List.filter_filter]
  congr 2 <;> exact List.filter_congr fun t _ => by simp [and_comm]

theorem roomy_iff {a : Nat} {req : OpenTunnelRequest} {id : String} (hI : s.Inv) :
    s.Roomy cfg (.openTunnel a req id) ↔ ∀ r, s.accepted cfg (.openTunnel a req id) = some r → r.token ∈ cfg.tokens →
      Within (s.heldBy r.token + 1) (cap r.token) := by
  simp only [Roomy, accepted, Option.filter_eq_some_iff, decide_eq_true_eq, and_imp, Option.mem_def]
  refine forall_congr' fun r => forall_congr' fun hr => ?_
  rw [heldBy, usedBy_eq hI hr]
  tauto

/-- What the checks compare is all there is, where nothing is missed and the cap is a whole number. -/
theorem Roomy.of_alone {a : Nat} {req : OpenTunnelRequest} {id : String}
    (hcap : ∀ token ∈ cfg.tokens, (cap token).isInteger = true)
    (halone : ∀ r, s.agents[a]? = some r → s.Alone a r.token) : s.Roomy cfg (.openTunnel a req id) := by
  intro r hr htok hg
  obtain ⟨helse, hunder⟩ := halone r hr
  have hbelow : BelowCap r := by
    cases hask : req.ask with
    | http sub => exact (hask ▸ hg : Grants cfg s r (.http sub)).1
    | tcp remotePort => exact (hask ▸ hg : Grants cfg s r (.tcp remotePort)).1
  have hint := hcap r.token htok
  rw [helse, hunder, Finset.card_empty, Nat.add_zero, Nat.add_zero]
  change numLe (cap r.token) r.tunnels.size = false at hbelow
  cases hc : cap r.token with
  | nan | inf negative => simp [hc, Num.isInteger] at hint
  | fin q =>
    simp only [hc, numLe, decide_eq_false_iff_not, not_le, Num.isInteger, beq_iff_eq] at hbelow hint
    have hq : ((q.num : ℤ) : ℚ) = q := Rat.den_eq_one_iff q |>.mp hint
    have hlt : (r.tunnels.size : ℤ) < q.num := by
      rw [← hq] at hbelow
      exact_mod_cast hbelow
    show ((r.tunnels.size + 1 : Nat) : ℚ) ≤ q
    rw [← hq]
    exact_mod_cast hlt

/-! ## Runs -/

theorem step_held (hI : s.Inv) (hid : s.FreshId e) (h : ∀ token ∈ cfg.tokens, Within (s.heldBy token) (cap token))
    (hok : s.Roomy cfg e) (hs : step cfg s e = some s') :
    ∀ token ∈ cfg.tokens, Within (s'.heldBy token) (cap token) := by
  intro token htok
  cases hacc : s.accepted cfg e with
  | none => exact (h token htok).mono (heldBy_le hI hid hs hacc token)
  | some r =>
    rw [heldBy_accepted hI hid hs hacc]
    by_cases hr : r.token = token
    · subst hr
      rw [if_pos rfl]
      cases e with
      | openTunnel a req id => exact (roomy_iff hI).mp hok r hacc htok
      | _ => cases hacc
    · rw [if_neg hr]
      exact h token htok

/-- A bind under way can succeed. -/
theorem exists_listening (cfg : Config) (hI : s.Inv) (ht : s.Underway t) : ∃ s', Run cfg (· = s) s' ∧ s'.Inv ∧
    s'.opening.lookup t = some .listening ∧ s'.underway = s.underway ∧ ∀ token, s'.heldBy token = s.heldBy token := by
  rcases ht with hw | hl
  · have hs : step cfg s (.listening t) = some (s.listening t) := by simp [step, hw]
    have hunderway : (s.listening t).underway = s.underway := by
      ext u
      simp only [mem_underway, Underway, listening, Dict.lookup_insert_ite]
      by_cases hut : u = t
      · subst hut
        simp [hw]
      · simp [hut]
    have hrun : Run cfg (· = s) (s.listening t) := .next (e := .listening t) (.start rfl) trivial hs
    have hI' : (s.listening t).Inv := hI.step (e := .listening t) trivial hs
    refine ⟨s.listening t, hrun, hI', by simp [listening], hunderway, fun token => ?_⟩
    have hof : (s.listening t).underwayOf token = s.underwayOf token := by
      ext u
      by_cases hut : s.Underway u
      · rw [mem_underwayOf_step hI hs hut, ← mem_underway, hunderway, mem_underway]
        exact and_iff_right hut
      · have hut' : ¬ (s.listening t).Underway u := by rwa [← mem_underway, hunderway, mem_underway]
        simp [mem_underwayOf, hut, hut']
    rw [heldBy, heldBy, hof, usedBy_same hI hs rfl]
  · exact ⟨s, .start rfl, hI, hl, rfl, fun _ => rfl⟩

/-- Then all that a token is about to have is recorded. -/
theorem exists_settled (cfg : Config) : ∀ (n : Nat) {s : Relay}, s.Inv → s.underway.card = n →
    ∃ s', Run cfg (· = s) s' ∧ ∀ token, s'.usedBy token = s.heldBy token
  | 0, s, _, hn => by
    refine ⟨s, .start rfl, fun token => ?_⟩
    rw [heldBy, underwayOf, Finset.card_eq_zero.mp hn, Finset.filter_empty, Finset.card_empty, Nat.add_zero]
  | n + 1, s, hI, hn => by
    obtain ⟨t, ht⟩ := Finset.card_pos.mp (by omega : 0 < s.underway.card)
    obtain ⟨s1, hrun1, hI1, ho, hunder1, hheld1⟩ := exists_listening cfg hI (mem_underway.mp ht)
    have hpending : s1.Pending t := Underway.pending (.inr ho)
    obtain ⟨tn, htn⟩ : ∃ tn, s1.tunnels[t]? = some tn :=
      ⟨_, List.getElem?_eq_getElem (known_lt hI1 (.inr hpending))⟩
    obtain ⟨s2, hs2⟩ : ∃ s2, step cfg s1 (.resume t) = some s2 := by
      simp only [step, ho, htn, resume, Option.map_some]
      exact ⟨_, rfl⟩
    have hcard : s2.underway.card = n := by
      rw [(heldBy_resume hI1 hs2 ho smallToken).2, hunder1, Finset.card_erase_of_mem ht, hn]
      rfl
    obtain ⟨s', hrun, hused⟩ := exists_settled cfg n (hI1.step (e := .resume t) trivial hs2) hcard
    refine ⟨s', (hrun1.next (show s1.FreshId (.resume t) from trivial) hs2).trans hrun, fun token => ?_⟩
    rw [hused, (heldBy_resume hI1 hs2 ho token).1, hheld1]

end

/-- In every run in which each request that gets past the checks of `open` finds room for what they do not
count, all caps hold. A request for which nothing is missed does, under a cap that is a whole number; and
where one does not, the run can go on to a state in which the cap is broken. -/
theorem capped_run (cfg : Config) (hcap : ∀ token ∈ cfg.tokens, Within 0 (cap token)) :
    (∀ s, Lts.Reach (Lts.ofFn (step cfg)) (InRoom cfg) (· = Relay.new cfg) s → s.Capped cfg) ∧
    (∀ (s : Relay) a req id, (∀ token ∈ cfg.tokens, (cap token).isInteger = true) →
      (∀ r, s.agents[a]? = some r → s.Alone a r.token) → s.Roomy cfg (.openTunnel a req id)) ∧
    ∀ s e s', Run cfg (· = Relay.new cfg) s → s.FreshId e → ¬ s.Roomy cfg e → step cfg s e = some s' →
      ∃ s'', Run cfg (· = s') s'' ∧ ¬ s''.Capped cfg := by
  refine ⟨fun s h => ?_, fun s a req id hint halone => .of_alone hint halone, fun s e s' h hid hok hs => ?_⟩
  · have hboth : s.Inv ∧ ∀ token ∈ cfg.tokens, Within (s.heldBy token) (cap token) := by
      refine h.invariant (I := fun s => s.Inv ∧ ∀ token ∈ cfg.tokens, Within (s.heldBy token) (cap token)) ?_
        fun s e s' _ hI hok hs => ⟨hI.1.step hok.1 hs, step_held hI.1 hok.1 hI.2 hok.2 hs⟩
      rintro _ rfl
      exact ⟨Inv.start cfg, hcap⟩
    exact fun token htok => (hboth.2 token htok).mono (Nat.le_add_right _ _)
  · have hI := reach_inv h
    cases e with
    | openTunnel a req id =>
      simp only [roomy_iff hI, not_forall] at hok
      obtain ⟨r, hacc, htok, hw⟩ := hok
      obtain ⟨s'', hrun, hused⟩ := exists_settled cfg _ (hI.step hid hs) rfl
      refine ⟨s'', hrun, fun hc => hw ?_⟩
      have := hc r.token htok
      rwa [hused, heldBy_accepted hI hid hs hacc, if_pos rfl] at this
    | _ => exact absurd trivial hok

def oneToken : TokenEntry := { smallToken with maxTunnels := some (.fin 1) }

def oneConfig : Config := { smallConfig with tokens := [oneToken] }

/-- A tunnel, its end, and another one. -/
def oneByOneRun : List Event :=
  [.connect oneToken "laptop",
    .openTunnel 0 ⟨some "r1", .tcp none, smallTarget⟩ "tn_1", .listening 0, .resume 0, .closeTunnel 0 "tn_1",
    .openTunnel 0 ⟨some "r2", .tcp none, smallTarget⟩ "tn_2", .listening 1, .resume 1]

theorem capped_oneByOneRun : ∃ s : Relay, s.Capped oneConfig ∧ s.usedBy oneToken = 1 := by
  have hx : (Lts.execOk (step oneConfig) (InRoom oneConfig) (Relay.new oneConfig) oneByOneRun).map
      (fun s => s.usedBy oneToken == 1) = some true := by decide +kernel
  obtain ⟨s, hs, hc⟩ := Option.map_eq_some_iff.mp hx
  have h0 : Lts.Reach (Lts.ofFn (step oneConfig)) (InRoom oneConfig) (· = Relay.new oneConfig)
      (Relay.new oneConfig) := .start rfl
  exact ⟨s, (capped_run oneConfig (by decide +kernel)).1 s (h0.execOk hs), beq_iff_eq.mp hc⟩

/-! ## Two binds at a time -/

def twoBindsRun : List Event :=
  [.connect oneToken "laptop",
    .openTunnel 0 ⟨some "r1", .tcp none, smallTarget⟩ "tn_1",
    .openTunnel 0 ⟨some "r2", .tcp none, smallTarget⟩ "tn_2",
    .listening 0, .resume 0, .listening 1, .resume 1]

theorem not_capped : ¬ ∀ (cfg : Config) (s : Relay), (∀ token ∈ cfg.tokens, Within 0 (cap token)) →
    Run cfg (· = Relay.new cfg) s → s.Capped cfg := by
  intro h
  have hx : (Lts.execOk (step oneConfig) FreshId (Relay.new oneConfig) twoBindsRun).map
      (fun s => s.usedBy oneToken == 2) = some true := by decide +kernel
  obtain ⟨s, hs, hc⟩ := Option.map_eq_some_iff.mp hx
  have h0 : Run oneConfig (· = Relay.new oneConfig) (Relay.new oneConfig) := .start rfl
  have hcap := h oneConfig s (by decide +kernel) (h0.execOk hs) oneToken (List.mem_singleton.mpr rfl)
  rw [beq_iff_eq.mp hc] at hcap
  exact absurd hcap (by decide +kernel)

end Relay

end UpTunnel
