import UpTunnel.Lib.Reach
import UpTunnel.Server.Registry

/-!
# UpTunnel.Server.Tenure

The registry's four maps say the same about which tunnels there are.

* `Rep`: each map is the index of the tunnels that are registered (`byPort` also of those whose bind
  is pending) by its own key.
* `Inv.step`: with fresh tunnel ids every event keeps `Inv`, which is `Rep` and what it takes to
  keep it.
* `reach_inv`: so `Inv` holds in every state that a run reaches.
-/

namespace UpTunnel

namespace Relay

/-! ## Registered and pending tunnels -/

def idOf (s : Relay) (t : Nat) : Option String := s.tunnels[t]?.map (·.id)

def subdomainOf (s : Relay) (t : Nat) : Option String := s.tunnels[t]?.bind (·.subdomain)

def portOf (s : Relay) (t : Nat) : Option Int := s.tunnels[t]?.bind (·.publicPort)

def agentOf (s : Relay) (t : Nat) : Option Nat := s.tunnels[t]?.map (·.agent)

/-- `t` is in `byId`. -/
def Live (s : Relay) (t : Nat) : Prop := ∃ id, s.byId.lookup id = some t

/-- The `open` of `t` is at its `await`. -/
def Pending (s : Relay) (t : Nat) : Prop := t ∈ s.opening

structure Rep (s : Relay) : Prop where
  byId : Index s.byId s.idOf s.Live
  bySubdomain : Index s.bySubdomain s.subdomainOf s.Live
  byPort : Index s.byPort s.portOf fun t => s.Live t ∨ s.Pending t
  agents : ∀ a r, s.agents[a]? = some r →
    Index r.tunnels s.idOf fun t => s.Live t ∧ s.agentOf t = some a

structure Inv (s : Relay) : Prop extends Rep s where
  ids : ∀ t t' id, s.idOf t = some id → s.idOf t' = some id → t = t'
  binding : ∀ t, s.Pending t → ¬ s.Live t ∧ s.subdomainOf t = none
  known : ∀ t, s.Pending t → (s.idOf t).isSome
  owned : ∀ t a, s.agentOf t = some a → a < s.agents.length

/-- No tunnel has had the id that a new one gets. -/
def FreshId (s : Relay) : Event → Prop
  | .openTunnel _ _ id => ∀ tn ∈ s.tunnels, tn.id ≠ id
  | _ => True

instance (s : Relay) (e : Event) : Decidable (s.FreshId e) := by
  cases e <;> unfold FreshId <;> infer_instance

theorem Inv.start (cfg : Config) : (Relay.new cfg).Inv where
  byId := by intro k t; simp [Relay.new, Live]
  bySubdomain := by intro k t; simp [Relay.new, Live]
  byPort := by intro k t; simp [Relay.new, Live, Pending]
  agents := by intro a r h; simp [Relay.new] at h
  ids := by intro t t' id h; simp [Relay.new, idOf] at h
  binding := by intro t h; simp [Relay.new, Pending] at h
  known := by intro t h; simp [Relay.new, Pending] at h
  owned := by intro t a h; simp [Relay.new, agentOf] at h

section
variable {s : Relay} {t u : Nat} {tn : Tunnel} {id : String}

theorem Inv.id_free (h : s.Inv) (ht : s.tunnels[t]? = some tn) (hl : ¬ s.Live t) :
    s.byId.lookup tn.id = none := by
  cases hu : s.byId.lookup tn.id with
  | none => rfl
  | some u =>
    have hid : s.idOf t = some tn.id := by simp [idOf, ht]
    obtain rfl := h.ids _ _ _ hid (h.byId.key_of_lookup hu)
    exact absurd ⟨_, hu⟩ hl

theorem live_known (h : s.Rep) (hl : s.Live t) : ∃ tn, s.tunnels[t]? = some tn := by
  obtain ⟨id, hid⟩ := hl
  have hk := h.byId.key_of_lookup hid
  cases ht : s.tunnels[t]? with
  | none => simp [idOf, ht] at hk
  | some tn => exact ⟨tn, rfl⟩

/-! ## Recording a tunnel -/

theorem live_register (hf : s.byId.lookup tn.id = none) :
    (s.register t tn).Live u ↔ u = t ∨ s.Live u := by
  have hlk : ∀ id, (s.register t tn).byId.lookup id = if id = tn.id then some t else s.byId.lookup id :=
    fun id => Dict.lookup_insert_ite _ _ _ _
  constructor
  · rintro ⟨id, hid⟩
    rw [hlk] at hid
    split at hid
    · exact .inl (Option.some.inj hid).symm
    · exact .inr ⟨id, hid⟩
  · rintro (rfl | ⟨id, hid⟩)
    · exact ⟨tn.id, by rw [hlk, if_pos rfl]⟩
    · refine ⟨id, ?_⟩
      rw [hlk, if_neg, hid]
      rintro rfl
      rw [hf] at hid
      cases hid

theorem byId_register (h : Index s.byId s.idOf s.Live) (hf : s.byId.lookup tn.id = none)
    (ht : s.tunnels[t]? = some tn) :
    Index (s.register t tn).byId (s.register t tn).idOf (s.register t tn).Live := by
  have hid : s.idOf t = some tn.id := by simp [idOf, ht]
  exact (h.insert hf hid).congr (fun u => live_register hf) fun _ _ => rfl

theorem agents_register
    (h : ∀ a r, s.agents[a]? = some r → Index r.tunnels s.idOf fun t => s.Live t ∧ s.agentOf t = some a)
    (hb : Index s.byId s.idOf s.Live) (hf : s.byId.lookup tn.id = none) (ht : s.tunnels[t]? = some tn)
    {a : Nat} {r : Registrant} (hr : (s.register t tn).agents[a]? = some r) :
    Index r.tunnels (s.register t tn).idOf fun u =>
      (s.register t tn).Live u ∧ (s.register t tn).agentOf u = some a := by
  have hid : s.idOf t = some tn.id := by simp [idOf, ht]
  have hag : s.agentOf t = some tn.agent := by simp [agentOf, ht]
  simp only [register, List.getElem?_modify] at hr
  cases hr0 : s.agents[a]? with
  | none => simp [hr0] at hr
  | some r0 =>
    rw [hr0] at hr
    have h0 := h a r0 hr0
    by_cases ha : tn.agent = a
    · subst ha
      simp only [if_pos, Option.map_eq_map, Option.map_some, Option.some.injEq] at hr
      subst hr
      have hfree : r0.tunnels.lookup tn.id = none := by
        cases hu : r0.tunnels.lookup tn.id with
        | none => rfl
        | some u =>
          have hu' := hb.lookup_of_mem (h0.mem_of_lookup hu).1 (h0.key_of_lookup hu)
          rw [hf] at hu'
          cases hu'
      refine (h0.insert hfree hid).congr (fun u => ?_) fun _ _ => rfl
      rw [live_register hf]
      constructor
      · rintro ⟨rfl | hl, hau⟩
        · exact .inl rfl
        · exact .inr ⟨hl, hau⟩
      · rintro (rfl | ⟨hl, hau⟩)
        · exact ⟨.inl rfl, hag⟩
        · exact ⟨.inr hl, hau⟩
    · simp only [if_neg ha, Option.map_eq_map, Option.map_some, Option.some.injEq] at hr
      subst hr
      refine h0.congr (fun u => ?_) fun _ _ => rfl
      rw [live_register hf]
      constructor
      · rintro ⟨rfl | hl, hau⟩
        · exact absurd (Option.some.inj (hag.symm.trans hau)) ha
        · exact ⟨hl, hau⟩
      · rintro ⟨hl, hau⟩
        exact ⟨.inr hl, hau⟩

/-! ## Taking a tunnel out -/

theorem close_of_not_live (h : s.Inv) (hl : ¬ s.Live t) : s.close t = s := by
  unfold close
  cases ht : s.tunnels[t]? with
  | none => rfl
  | some tn =>
    have hf : tn.id ∉ s.byId := AList.lookup_eq_none.mp (h.id_free ht hl)
    simp [hf]

theorem close_of_live (h : s.Rep) (hl : s.Live t) :
    ∃ tn, s.tunnels[t]? = some tn ∧ s.close t = s.remove t tn := by
  obtain ⟨tn, ht⟩ := live_known h hl
  have hid : s.idOf t = some tn.id := by simp [idOf, ht]
  have hin : tn.id ∈ s.byId := by
    rw [← AList.lookup_isSome, h.byId.lookup_of_mem hl hid]
    rfl
  refine ⟨tn, ht, ?_⟩
  simp [close, ht, hin]

theorem live_remove (h : s.Rep) (hl : s.Live t) (ht : s.tunnels[t]? = some tn) :
    (s.remove t tn).Live u ↔ s.Live u ∧ u ≠ t := by
  have hid : s.idOf t = some tn.id := by simp [idOf, ht]
  have hx := h.byId.erase hl hid
  constructor
  · rintro ⟨id, hu⟩
    exact hx.mem_of_lookup hu
  · rintro ⟨⟨id, hu⟩, hne⟩
    exact ⟨id, hx.lookup_of_mem ⟨⟨id, hu⟩, hne⟩ (h.byId.key_of_lookup hu)⟩

/-! ## Events that leave the maps -/

/-- What of a tunnel never changes. -/
def fixed (tn : Tunnel) : String × Place × Nat := (tn.id, tn.place, tn.agent)

theorem fixed_modify (l : List Tunnel) (t u : Nat) (b : Bool) :
    (l.modify t fun tn => { tn with listener := b })[u]?.map fixed = l[u]?.map fixed := by
  rw [List.getElem?_modify]
  by_cases h : t = u
  · cases l[u]? <;> simp [h, fixed]
  · cases l[u]? <;> simp [h]

/-- The tunnels are the same ones, up to their listeners. -/
def SameTunnels (s s' : Relay) : Prop :=
  ∀ u : Nat, s'.tunnels[u]?.map fixed = s.tunnels[u]?.map fixed

namespace SameTunnels

variable {s' : Relay}

theorem bind (h : SameTunnels s s') {α : Type} {f : Tunnel → Option α}
    (hf : ∀ tn tn', fixed tn = fixed tn' → f tn = f tn') (u : Nat) :
    s'.tunnels[u]?.bind f = s.tunnels[u]?.bind f := by
  have hu := h u
  cases h' : s'.tunnels[u]? with
  | none =>
    rw [h', Option.map_none, eq_comm, Option.map_eq_none_iff] at hu
    rw [hu]
  | some tn' =>
    rw [h', Option.map_some, eq_comm, Option.map_eq_some_iff] at hu
    obtain ⟨tn, htn, he⟩ := hu
    rw [htn]
    exact hf _ _ he.symm

theorem idOf (h : SameTunnels s s') : s'.idOf = s.idOf := by
  funext u
  simp only [Relay.idOf, Option.map_eq_bind]
  refine h.bind (fun tn tn' he => ?_) u
  have hp : tn.id = tn'.id := congrArg (·.1) he
  simp [hp]

theorem agentOf (h : SameTunnels s s') : s'.agentOf = s.agentOf := by
  funext u
  simp only [Relay.agentOf, Option.map_eq_bind]
  refine h.bind (fun tn tn' he => ?_) u
  have hp : tn.agent = tn'.agent := congrArg (·.2.2) he
  simp [hp]

theorem subdomainOf (h : SameTunnels s s') : s'.subdomainOf = s.subdomainOf := by
  funext u
  refine h.bind (fun tn tn' he => ?_) u
  have hp : tn.place = tn'.place := congrArg (·.2.1) he
  simp [Tunnel.subdomain, hp]

theorem portOf (h : SameTunnels s s') : s'.portOf = s.portOf := by
  funext u
  refine h.bind (fun tn tn' he => ?_) u
  have hp : tn.place = tn'.place := congrArg (·.2.1) he
  simp [Tunnel.publicPort, hp]

end SameTunnels

/-- An event that leaves the maps, what a tunnel is, and which binds are pending. -/
theorem Inv.frame {s' : Relay} (h : s.Inv) (htn : SameTunnels s s') (hb : s'.byId = s.byId)
    (hs : s'.bySubdomain = s.bySubdomain) (hp : s'.byPort = s.byPort)
    (ho : ∀ u, s'.Pending u ↔ s.Pending u) (hl : s.agents.length ≤ s'.agents.length)
    (ha : ∀ a r', s'.agents[a]? = some r' →
      (∃ r, s.agents[a]? = some r ∧ r'.tunnels = r.tunnels) ∨ s.agents.length ≤ a ∧ r'.tunnels = ∅) :
    s'.Inv := by
  have hlive : ∀ u, s'.Live u ↔ s.Live u := fun u => by simp only [Live, hb]
  refine ⟨⟨?_, ?_, ?_, ?_⟩, ?_, ?_, ?_, ?_⟩
  · rw [hb, htn.idOf]
    exact h.byId.congr hlive fun _ _ => rfl
  · rw [hs, htn.subdomainOf]
    exact h.bySubdomain.congr hlive fun _ _ => rfl
  · rw [hp, htn.portOf]
    exact h.byPort.congr (fun u => by rw [hlive, ho]) fun _ _ => rfl
  · intro a r' hr'
    rw [htn.idOf, htn.agentOf]
    rcases ha a r' hr' with ⟨r, hr, he⟩ | ⟨hlen, he⟩
    · rw [he]
      exact (h.agents a r hr).congr (fun u => by rw [hlive]) fun _ _ => rfl
    · rw [he]
      refine Index.empty.congr (fun u => ?_) fun u _ => rfl
      rw [iff_false]
      rintro ⟨_, hau⟩
      have := h.owned u a hau
      omega
  · rw [htn.idOf]
    exact h.ids
  · intro u hu
    rw [hlive, htn.subdomainOf]
    exact h.binding u ((ho u).mp hu)
  · intro u hu
    rw [htn.idOf]
    exact h.known u ((ho u).mp hu)
  · intro u a hu
    rw [htn.agentOf] at hu
    exact Nat.lt_of_lt_of_le (h.owned u a hu) hl

theorem Inv.connect (h : s.Inv) (token : TokenEntry) (clientName : String) :
    Inv { s with agents := s.agents ++ [{ token, clientName, tunnels := ∅, closed := false }] } := by
  refine h.frame (fun _ => rfl) rfl rfl rfl (fun _ => Iff.rfl) (by simp) ?_
  intro a r' hr'
  by_cases ha : a < s.agents.length
  · left
    exact ⟨r', by simpa [List.getElem?_append_left ha] using hr', rfl⟩
  · right
    rw [List.getElem?_append_right (by omega)] at hr'
    rw [List.getElem?_singleton] at hr'
    split at hr'
    · cases hr'
      exact ⟨by omega, rfl⟩
    · cases hr'

theorem Inv.listening (h : s.Inv) (ho : s.Pending t) : (s.listening t).Inv := by
  refine h.frame (fun u => fixed_modify s.tunnels t u true) rfl rfl rfl (fun u => ?_) (Nat.le_refl _)
    fun a r hr => .inl ⟨r, hr, rfl⟩
  simp only [Pending, Relay.listening, AList.mem_insert]
  exact ⟨fun hu => hu.elim (fun he => he ▸ ho) id, .inr⟩

theorem Inv.listenError (h : s.Inv) (ho : s.Pending t) (message : String) :
    (s.listenError t message).Inv := by
  refine h.frame (fun _ => rfl) rfl rfl rfl (fun u => ?_) (Nat.le_refl _) fun a r hr => .inl ⟨r, hr, rfl⟩
  simp only [Pending, Relay.listenError, AList.mem_insert]
  exact ⟨fun hu => hu.elim (fun he => he ▸ ho) id, .inr⟩

theorem Inv.hangUp (h : s.Inv) (a : Nat) :
    Inv { s with agents := s.agents.modify a fun r => { r with closed := true } } := by
  refine h.frame (fun _ => rfl) rfl rfl rfl (fun _ => Iff.rfl) (by simp) ?_
  intro a' r' hr'
  left
  simp only [List.getElem?_modify] at hr'
  obtain ⟨r, hr, he⟩ := Option.map_eq_some_iff.mp hr'
  refine ⟨r, hr, ?_⟩
  subst he
  split <;> rfl

/-! ## Events that enter a tunnel or take one out -/

theorem Inv.remove (h : s.Inv) (hl : s.Live t) (ht : s.tunnels[t]? = some tn) : (s.remove t tn).Inv := by
  have htn : SameTunnels s (s.remove t tn) := fun u => fixed_modify s.tunnels t u false
  have hlive : ∀ u, (s.remove t tn).Live u ↔ s.Live u ∧ u ≠ t := fun u => live_remove h.toRep hl ht
  have hid : s.idOf t = some tn.id := by simp [idOf, ht]
  have hsub : s.subdomainOf t = tn.subdomain := by simp [subdomainOf, ht]
  have hport : s.portOf t = tn.publicPort := by simp [portOf, ht]
  have hag : s.agentOf t = some tn.agent := by simp [agentOf, ht]
  have hpend : ∀ u, s.Pending u → u ≠ t := fun u hu he => (h.binding u hu).1 (he ▸ hl)
  refine ⟨⟨?_, ?_, ?_, ?_⟩, ?_, ?_, ?_, ?_⟩
  · rw [htn.idOf]
    exact (h.byId.erase hl hid).congr hlive fun _ _ => rfl
  · rw [htn.subdomainOf]
    exact (hsub ▸ h.bySubdomain.eraseKey hl).congr hlive fun _ _ => rfl
  · rw [htn.portOf]
    refine (hport ▸ h.byPort.eraseKey (.inl hl)).congr (fun u => ?_) fun _ _ => rfl
    rw [hlive]
    constructor
    · rintro (⟨hu, hne⟩ | hu)
      · exact ⟨.inl hu, hne⟩
      · exact ⟨.inr hu, hpend u hu⟩
    · rintro ⟨hu | hu, hne⟩
      · exact .inl ⟨hu, hne⟩
      · exact .inr hu
  · intro a r' hr'
    rw [htn.idOf, htn.agentOf]
    simp only [Relay.remove, List.getElem?_modify] at hr'
    obtain ⟨r, hr, he⟩ := Option.map_eq_some_iff.mp hr'
    have h0 := h.agents a r hr
    by_cases ha : tn.agent = a
    · subst ha
      rw [if_pos rfl] at he
      subst he
      refine (h0.erase ⟨hl, hag⟩ hid).congr (fun u => ?_) fun _ _ => rfl
      rw [hlive]
      exact ⟨fun ⟨⟨hu, hne⟩, hau⟩ => ⟨⟨hu, hau⟩, hne⟩, fun ⟨⟨hu, hau⟩, hne⟩ => ⟨⟨hu, hne⟩, hau⟩⟩
    · rw [if_neg ha] at he
      subst he
      refine h0.congr (fun u => ?_) fun _ _ => rfl
      rw [hlive]
      refine ⟨fun ⟨⟨hu, _⟩, hau⟩ => ⟨hu, hau⟩, fun ⟨hu, hau⟩ => ⟨⟨hu, ?_⟩, hau⟩⟩
      rintro rfl
      exact ha (Option.some.inj (hag.symm.trans hau))
  · rw [htn.idOf]
    exact h.ids
  · intro u hu
    rw [hlive, htn.subdomainOf]
    exact ⟨fun hlu => (h.binding u hu).1 hlu.1, (h.binding u hu).2⟩
  · intro u hu
    rw [htn.idOf]
    exact h.known u hu
  · intro u a hu
    rw [htn.agentOf] at hu
    simpa [Relay.remove] using h.owned u a hu

theorem Inv.close (h : s.Inv) (t : Nat) : (s.close t).Inv := by
  by_cases hl : s.Live t
  · obtain ⟨tn, ht, he⟩ := close_of_live h.toRep hl
    rw [he]
    exact h.remove hl ht
  · rw [close_of_not_live h hl]
    exact h

/-- What each `close` keeps, closing many tunnels keeps. -/
theorem Inv.closeAll_keeps (h : s.Inv) {P : Relay → Prop} (hP : ∀ s t, s.Inv → P s → P (s.close t))
    (hs : P s) (ts : List Nat) : (ts.foldl Relay.close s).Inv ∧ P (ts.foldl Relay.close s) := by
  induction ts generalizing s with
  | nil => exact ⟨h, hs⟩
  | cons t ts ih => exact ih (h.close t) (hP s t h hs)

theorem Inv.closeAll (h : s.Inv) (ts : List Nat) : (ts.foldl Relay.close s).Inv :=
  (h.closeAll_keeps (P := fun _ => True) (fun _ _ _ _ => trivial) trivial ts).1

/-- `resume` makes a pending tunnel a registered one, or none at all. -/
theorem Inv.resume (h : s.Inv) {b : Bind} {s' : Relay} {e : Option TunnelError} (ho : s.Pending t)
    (ht : s.tunnels[t]? = some tn) (hr : s.resume t tn b = some (s', e)) : s'.Inv := by
  obtain ⟨hnl, hsub⟩ := h.binding t ho
  have hf := h.id_free ht hnl
  have hport : s.portOf t = tn.publicPort := by simp [portOf, ht]
  have hpend : ∀ u, u ∈ s.opening.erase t ↔ s.Pending u ∧ u ≠ t := by
    intro u
    rw [AList.mem_erase, Pending, and_comm]
  cases b with
  | waiting => cases hr
  | listening =>
    cases hr
    have hlive : ∀ u, Live (register { s with opening := s.opening.erase t } t tn) u ↔ u = t ∨ s.Live u :=
      fun u => live_register hf
    refine ⟨⟨byId_register h.byId hf ht, ?_, ?_, fun a r hr => agents_register h.agents h.byId hf ht hr⟩,
      h.ids, ?_, fun u hu => h.known u ((hpend u).mp hu).1, ?_⟩
    · exact (h.bySubdomain.add hsub).congr hlive fun _ _ => rfl
    · refine h.byPort.congr (fun u => ?_) fun _ _ => rfl
      rw [hlive]
      change (u = t ∨ s.Live u) ∨ u ∈ s.opening.erase t ↔ _
      rw [hpend]
      by_cases hu : u = t
      · subst hu
        simp [ho]
      · simp [hu]
    · intro u hu
      obtain ⟨hpu, hne⟩ := (hpend u).mp hu
      obtain ⟨hnlu, hsu⟩ := h.binding u hpu
      exact ⟨fun hl => ((hlive u).mp hl).elim hne hnlu, hsu⟩
    · intro u a hu
      have := h.owned u a hu
      simpa [register] using this
  | failed message =>
    cases hr
    refine ⟨⟨h.byId, h.bySubdomain, ?_, h.agents⟩, h.ids, fun u hu => h.binding u ((hpend u).mp hu).1,
      fun u hu => h.known u ((hpend u).mp hu).1, h.owned⟩
    refine (hport ▸ h.byPort.eraseKey (.inr ho)).congr (fun u => ?_) fun _ _ => rfl
    change s.Live u ∨ u ∈ s.opening.erase t ↔ _
    rw [hpend]
    constructor
    · rintro (hu | ⟨hu, hne⟩)
      · exact ⟨.inl hu, fun he => hnl (he ▸ hu)⟩
      · exact ⟨.inr hu, hne⟩
    · rintro ⟨hu | hu, hne⟩
      · exact .inl hu
      · exact .inr ⟨hu, hne⟩

/-! ## A new tunnel -/

theorem getElem?_concat (l : List Tunnel) (tn : Tunnel) (u : Nat) :
    (l ++ [tn])[u]? = if u = l.length then some tn else l[u]? := by
  by_cases hu : u = l.length
  · subst hu
    simp
  · rw [if_neg hu, List.getElem?_append]
    split
    · rfl
    · rw [List.getElem?_eq_none (by simp; omega), List.getElem?_eq_none (by omega)]

theorem known_lt (h : s.Inv) (hu : s.Live u ∨ s.Pending u) : u < s.tunnels.length := by
  have hk : (s.idOf u).isSome := by
    rcases hu with hl | hp
    · obtain ⟨id, hid⟩ := hl
      rw [h.byId.key_of_lookup hid]
      rfl
    · exact h.known u hp
  by_contra hge
  rw [idOf, List.getElem?_eq_none (by omega)] at hk
  cases hk

theorem Inv.enter (h : s.Inv) (hid : ∀ o ∈ s.tunnels, o.id ≠ tn.id) (ha : tn.agent < s.agents.length) :
    Inv { s with tunnels := s.tunnels ++ [tn] } := by
  have hlt : ∀ u, s.Live u ∨ s.Pending u → u ≠ s.tunnels.length := fun u hu => by
    have := known_lt h hu
    omega
  have hkey : ∀ u, u ≠ s.tunnels.length → (s.tunnels ++ [tn])[u]? = s.tunnels[u]? := fun u hu => by
    rw [getElem?_concat, if_neg hu]
  have hnew : ∀ u id, s.idOf u = some id → id ≠ tn.id := by
    intro u id hu
    obtain ⟨o, ho, he⟩ := Option.map_eq_some_iff.mp hu
    exact he ▸ hid o (List.mem_of_getElem? ho)
  refine ⟨⟨?_, ?_, ?_, ?_⟩, ?_, ?_, ?_, ?_⟩
  · exact h.byId.congr (fun _ => Iff.rfl) fun u hu => by simp only [idOf, hkey u (hlt u (.inl hu))]
  · exact h.bySubdomain.congr (fun _ => Iff.rfl) fun u hu => by
      simp only [subdomainOf, hkey u (hlt u (.inl hu))]
  · exact h.byPort.congr (fun _ => Iff.rfl) fun u hu => by simp only [portOf, hkey u (hlt u hu)]
  · intro a r hr
    refine (h.agents a r hr).congr (fun u => ?_) fun u hu => by
      simp only [idOf, hkey u (hlt u (.inl hu.1))]
    refine and_congr_right fun hu => ?_
    simp only [agentOf, hkey u (hlt u (.inl hu))]
  · intro u u' id hu hu'
    simp only [idOf, getElem?_concat] at hu hu'
    split at hu <;> split at hu'
    · omega
    · cases hu
      exact absurd rfl (hnew u' _ hu')
    · cases hu'
      exact absurd rfl (hnew u _ hu)
    · exact h.ids u u' id hu hu'
  · intro u hu
    simp only [subdomainOf, hkey u (hlt u (.inr hu))]
    exact h.binding u hu
  · intro u hu
    simp only [idOf, hkey u (hlt u (.inr hu))]
    exact h.known u hu
  · intro u a hu
    simp only [agentOf, getElem?_concat] at hu
    split at hu
    · cases hu
      exact ha
    · exact h.owned u a hu

/-- The tunnel just entered gets a free name and is recorded. -/
theorem Inv.registerHttp (h : s.Inv) (ht : s.tunnels[t]? = some tn) (hnl : ¬ s.Live t) (hnp : ¬ s.Pending t)
    {sub : Label} (hp : tn.place = .http sub) (hfree : s.bySubdomain.lookup sub.val = none) :
    Inv ({ s with bySubdomain := s.bySubdomain.insert sub.val t }.register t tn) := by
  have hf := h.id_free ht hnl
  have hsub : s.subdomainOf t = some sub.val := by simp [subdomainOf, ht, Tunnel.subdomain, hp]
  have hport : s.portOf t = none := by simp [portOf, ht, Tunnel.publicPort, hp]
  have hlive : ∀ u, Live (register { s with bySubdomain := s.bySubdomain.insert sub.val t } t tn) u ↔
      u = t ∨ s.Live u := fun u => live_register hf
  refine ⟨⟨byId_register h.byId hf ht, ?_, ?_, fun a r hr => agents_register h.agents h.byId hf ht hr⟩,
    h.ids, ?_, h.known, ?_⟩
  · exact (h.bySubdomain.insert hfree hsub).congr hlive fun _ _ => rfl
  · refine (h.byPort.add hport).congr (fun u => ?_) fun _ _ => rfl
    rw [hlive, or_assoc]
    exact Iff.rfl
  · intro u hu
    obtain ⟨hnlu, hsu⟩ := h.binding u hu
    refine ⟨fun hl => ?_, hsu⟩
    rcases (hlive u).mp hl with rfl | hl
    · exact hnp hu
    · exact hnlu hl
  · intro u a hu
    have := h.owned u a hu
    simpa [register] using this

/-- The tunnel just entered gets a free port and its bind is pending. -/
theorem Inv.bindTcp (h : s.Inv) (ht : s.tunnels[t]? = some tn) (hnl : ¬ s.Live t) {port hint : Int}
    (hp : tn.place = .tcp port) (hfree : s.byPort.lookup port = none) :
    Inv { s with
      nextPortHint := hint
      byPort := s.byPort.insert port t
      opening := s.opening.insert t .waiting } := by
  have hsub : s.subdomainOf t = none := by simp [subdomainOf, ht, Tunnel.subdomain, hp]
  have hport : s.portOf t = some port := by simp [portOf, ht, Tunnel.publicPort, hp]
  have hpend : ∀ u, u ∈ s.opening.insert t .waiting ↔ u = t ∨ s.Pending u := by
    intro u
    rw [AList.mem_insert, Pending]
  refine ⟨⟨h.byId, h.bySubdomain, ?_, h.agents⟩, h.ids, ?_, ?_, h.owned⟩
  · refine (h.byPort.insert hfree hport).congr (fun u => ?_) fun _ _ => rfl
    change s.Live u ∨ u ∈ s.opening.insert t .waiting ↔ _
    rw [hpend, or_left_comm]
  · intro u hu
    rcases (hpend u).mp hu with rfl | hu
    · exact ⟨hnl, hsub⟩
    · exact h.binding u hu
  · intro u hu
    rcases (hpend u).mp hu with rfl | hu
    · simp [idOf, ht]
    · exact h.known u hu

theorem Inv.begin {cfg : Config} {a : Nat} {r : Registrant} {req : OpenTunnelRequest} {s' : Relay}
    (h : s.Inv) (hr : s.agents[a]? = some r) (hid : ∀ o ∈ s.tunnels, o.id ≠ id)
    (hb : s.begin cfg a r req id = .ok s') : s'.Inv := by
  have ha : a < s.agents.length := (List.getElem?_eq_some_iff.mp hr).1
  have hnl : ¬ s.Live s.tunnels.length := fun hl => absurd (known_lt h (.inl hl)) (Nat.lt_irrefl _)
  have hnp : ¬ s.Pending s.tunnels.length := fun hp => absurd (known_lt h (.inr hp)) (Nat.lt_irrefl _)
  obtain ⟨_, ⟨sub, tn, _, rfl, _, hfree, rfl⟩ | ⟨remotePort, port, hint, tn, _, hc, rfl, rfl⟩⟩ := begin_cases hb
  · exact (h.enter hid ha).registerHttp List.getElem?_concat_length hnl hnp rfl hfree
  · exact (h.enter hid ha).bindTcp List.getElem?_concat_length hnl rfl (claimPort_free hc)

end

/-! ## Runs -/

theorem Inv.closeAllFor {s : Relay} (h : s.Inv) (r : Registrant) : (s.closeAllFor r).Inv := h.closeAll _

theorem Inv.step {cfg : Config} {s s' : Relay} {e : Event} (h : s.Inv) (hok : s.FreshId e)
    (hs : Relay.step cfg s e = some s') : s'.Inv := by
  cases e with
  | connect token clientName =>
    cases hs
    exact h.connect token clientName
  | openTunnel a req id =>
    obtain ⟨r, hr, rfl⟩ := Option.map_eq_some_iff.mp hs
    cases hb : s.begin cfg a r req id with
    | ok s' => exact h.begin hr hok hb
    | error e => exact h
  | listening t =>
    simp only [Relay.step] at hs
    split at hs
    · rename_i ho
      cases hs
      exact h.listening (AList.lookup_isSome.mp (by rw [ho]; rfl))
    · cases hs
  | listenError t message =>
    simp only [Relay.step] at hs
    split at hs
    · rename_i ho
      cases hs
      exact h.listenError (AList.lookup_isSome.mp (by rw [ho]; rfl)) message
    · cases hs
  | resume t =>
    simp only [Relay.step] at hs
    split at hs
    · rename_i b tn ho ht
      obtain ⟨⟨s1, e⟩, hr, rfl⟩ := Option.map_eq_some_iff.mp hs
      exact h.resume (AList.lookup_isSome.mp (by rw [ho]; rfl)) ht hr
    · cases hs
  | closeTunnel a id =>
    obtain ⟨r, hr, rfl⟩ := Option.map_eq_some_iff.mp hs
    simp only [Relay.closeTunnel]
    split
    · exact h
    · exact h.close _
  | close t =>
    cases hs
    exact h.close t
  | closeAllFor a =>
    obtain ⟨r, hr, rfl⟩ := Option.map_eq_some_iff.mp hs
    exact h.closeAllFor r
  | destroy a =>
    obtain ⟨r, hr, rfl⟩ := Option.map_eq_some_iff.mp hs
    simp only [Relay.destroy]
    split
    · exact h
    · exact (h.hangUp a).closeAllFor r

/-- A run with fresh ids, from a state of `init`. -/
abbrev Run (cfg : Config) (init : Relay → Prop) : Relay → Prop := Lts.Reach (Lts.ofFn (step cfg)) FreshId init

theorem inv_run {cfg : Config} {init : Relay → Prop} {s : Relay} (hi : ∀ s, init s → s.Inv)
    (h : Run cfg init s) : s.Inv :=
  h.invariant hi fun _ _ _ _ hI hok hs => hI.step hok hs

theorem reach_inv {cfg : Config} {s : Relay} (h : Run cfg (· = Relay.new cfg) s) : s.Inv :=
  inv_run (by rintro _ rfl; exact Inv.start cfg) h

end Relay

end UpTunnel
