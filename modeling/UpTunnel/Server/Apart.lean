import UpTunnel.Server.WellKept

/-!
# UpTunnel.Server.Apart

The registry as one session sees it: what other sessions and their binds do leaves its own tunnels as
they are (`Apart.step`).
-/

namespace UpTunnel

namespace Relay

/-- The event is about other sessions than `a`, or their tunnels. -/
def Foreign (a : Nat) (s : Relay) : Event → Prop
  | .connect .. => True
  | .openTunnel b .. | .closeTunnel b _ | .closeAllFor b | .destroy b => b ≠ a
  | .listening t | .listenError t _ | .resume t | .close t => s.agentOf t ≠ some a

instance (a : Nat) (s : Relay) : (e : Event) → Decidable (s.Foreign a e)
  | .connect .. => instDecidableTrue
  | .openTunnel b .. | .closeTunnel b _ | .closeAllFor b | .destroy b => @instDecidableNot (b = a) (instDecidableEqNat b a)
  | .listening t | .listenError t _ | .resume t | .close t =>
    @instDecidableNot (s.agentOf t = some a) (Option.instDecidableEq _ _)

/-- For the session `a`, `s'` is `s`. -/
structure Apart (a : Nat) (s s' : Relay) : Prop where
  tunnels : ∀ (t : Nat) (tn : Tunnel), tn.agent = a → (s'.tunnels[t]? = some tn ↔ s.tunnels[t]? = some tn)
  live : ∀ t, s.agentOf t = some a → (s'.Live t ↔ s.Live t)
  opening : ∀ t, s.agentOf t = some a → s'.opening.lookup t = s.opening.lookup t
  agents : s.agents.length ≤ s'.agents.length

section
variable {a t : Nat} {s s' s'' : Relay}

theorem agentOf_eq_some : s.agentOf t = some a ↔ ∃ tn, s.tunnels[t]? = some tn ∧ tn.agent = a := by
  simp [agentOf]

theorem Apart.refl (a : Nat) (s : Relay) : Apart a s s :=
  ⟨fun _ _ _ => Iff.rfl, fun _ _ => Iff.rfl, fun _ _ => rfl, Nat.le_refl _⟩

theorem Apart.agentOf (h : Apart a s s') (t : Nat) : s'.agentOf t = some a ↔ s.agentOf t = some a := by
  simp only [agentOf_eq_some]
  constructor
  · rintro ⟨tn, ht, ha⟩
    exact ⟨tn, (h.tunnels t tn ha).mp ht, ha⟩
  · rintro ⟨tn, ht, ha⟩
    exact ⟨tn, (h.tunnels t tn ha).mpr ht, ha⟩

theorem Apart.trans (h : Apart a s s') (h' : Apart a s' s'') : Apart a s s'' where
  tunnels t tn ha := (h'.tunnels t tn ha).trans (h.tunnels t tn ha)
  live t ht := (h'.live t ((h.agentOf t).mpr ht)).trans (h.live t ht)
  opening t ht := (h'.opening t ((h.agentOf t).mpr ht)).trans (h.opening t ht)
  agents := h.agents.trans h'.agents

/-- The listener of another session's tunnel. -/
theorem tunnels_modify (ht : s.agentOf t ≠ some a) (b : Bool) (u : Nat) (tn : Tunnel) (ha : tn.agent = a) :
    (s.tunnels.modify t fun tn => { tn with listener := b })[u]? = some tn ↔ s.tunnels[u]? = some tn := by
  by_cases hu : t = u
  · subst hu
    rw [List.getElem?_modify_eq]
    constructor
    · intro h
      obtain ⟨tn0, h0, rfl⟩ := Option.map_eq_some_iff.mp h
      exact absurd (agentOf_eq_some.mpr ⟨tn0, h0, ha⟩) ht
    · intro h
      exact absurd (agentOf_eq_some.mpr ⟨tn, h, ha⟩) ht
  · rw [List.getElem?_modify_ne _ _ hu]

theorem Apart.close (hI : s.Inv) (ht : s.agentOf t ≠ some a) : Apart a s (s.close t) := by
  by_cases hl : s.Live t
  · obtain ⟨tn, htn, he⟩ := close_of_live hI.toRep hl
    rw [he]
    refine ⟨tunnels_modify ht false, fun u hu => ?_, fun _ _ => rfl, by simp [remove]⟩
    rw [live_remove hI.toRep hl htn]
    refine ⟨And.left, fun h => ⟨h, ?_⟩⟩
    rintro rfl
    exact ht hu
  · rw [close_of_not_live hI hl]
    exact .refl a s

theorem Apart.closeAll {ts : List Nat} (hI : s.Inv) (hts : ∀ t ∈ ts, s.agentOf t ≠ some a) :
    Apart a s (ts.foldl Relay.close s) := by
  induction ts generalizing s with
  | nil => exact .refl a s
  | cons t ts ih =>
    have h1 : Apart a s (s.close t) := .close hI (hts t List.mem_cons_self)
    refine h1.trans (ih (hI.close t) fun u hu he => ?_)
    exact hts u (List.mem_cons_of_mem t hu) ((h1.agentOf u).mp he)

/-- The tunnels of another session. -/
theorem agentOf_values {b : Nat} {r : Registrant} (hI : s.Inv) (hr : s.agents[b]? = some r) (hb : b ≠ a) :
    ∀ t ∈ r.tunnels.values, s.agentOf t ≠ some a := by
  intro t ht he
  refine hb ?_
  obtain ⟨id, hid⟩ := Dict.mem_values.mp ht
  have h1 := ((hI.agents b r hr).mem_of_lookup hid).2
  rw [h1] at he
  exact Option.some.inj he

theorem agentOf_length (s : Relay) : s.agentOf s.tunnels.length = none := by
  simp [Relay.agentOf]

/-- A tunnel entered for another session. -/
theorem tunnels_concat {tn : Tunnel} (h : tn.agent ≠ a) (u : Nat) (tn' : Tunnel) (ha : tn'.agent = a) :
    (s.tunnels ++ [tn])[u]? = some tn' ↔ s.tunnels[u]? = some tn' := by
  rw [getElem?_concat]
  split
  · rename_i hu
    subst hu
    simp only [Option.some.injEq, List.getElem?_eq_none (Nat.le_refl _), reduceCtorEq, iff_false]
    rintro rfl
    exact h ha
  · rfl

/-- A pending tunnel of another session. -/
theorem ne_of_foreign {u : Nat} (ht : s.agentOf t ≠ some a) (hu : s.agentOf u = some a) : u ≠ t := by
  rintro rfl
  exact ht hu

theorem Apart.begin {cfg : Config} {b : Nat} {r : Registrant} {req : OpenTunnelRequest} {id : String} (hI : s.Inv)
    (hid : ∀ tn ∈ s.tunnels, tn.id ≠ id) (hb : b ≠ a) (h : s.begin cfg b r req id = .ok s') : Apart a s s' := by
  have hnew : ∀ u, s.agentOf u = some a → u ≠ s.tunnels.length := by
    rintro u hu rfl
    simp [agentOf_length] at hu
  obtain ⟨-, ⟨sub, tn, -, rfl, -, -, rfl⟩ | ⟨remotePort, port, hint, tn, -, -, rfl, rfl⟩⟩ := begin_cases h
  · refine ⟨tunnels_concat hb, fun u hu => ?_, fun _ _ => rfl, by simp [register]⟩
    have hfree : s.byId.lookup id = none := not_mem_of_fresh hI hid
    exact (live_register hfree).trans (or_iff_right (hnew u hu))
  · refine ⟨tunnels_concat hb, fun _ _ => Iff.rfl, fun u hu => ?_, Nat.le_refl _⟩
    exact AList.lookup_insert_ne (hnew u hu)

/-- What is foreign to a session leaves its tunnels. -/
theorem Apart.step {cfg : Config} {e : Event} (hI : s.Inv) (hid : s.FreshId e) (hf : s.Foreign a e)
    (h : Relay.step cfg s e = some s') : Apart a s s' := by
  cases e with
  | connect token clientName =>
    cases h
    exact ⟨fun _ _ _ => Iff.rfl, fun _ _ => Iff.rfl, fun _ _ => rfl, by simp⟩
  | openTunnel b req id =>
    obtain ⟨r, hr, rfl⟩ := Option.map_eq_some_iff.mp h
    cases hb : s.begin cfg b r req id with
    | error e => exact .refl a s
    | ok s' => exact .begin hI hid hf hb
  | listening t =>
    simp only [Relay.step] at h
    split at h
    · cases h
      exact ⟨tunnels_modify hf true, fun _ _ => Iff.rfl, fun u hu => AList.lookup_insert_ne (ne_of_foreign hf hu),
        Nat.le_refl _⟩
    · cases h
  | listenError t message =>
    simp only [Relay.step] at h
    split at h
    · cases h
      exact ⟨fun _ _ _ => Iff.rfl, fun _ _ => Iff.rfl, fun u hu => AList.lookup_insert_ne (ne_of_foreign hf hu),
        Nat.le_refl _⟩
    · cases h
  | resume t =>
    simp only [Relay.step] at h
    split at h
    · rename_i b tn ho ht
      obtain ⟨⟨s1, e⟩, hr, rfl⟩ := Option.map_eq_some_iff.mp h
      have hp : s.Pending t := AList.lookup_isSome.mp (by rw [ho]; rfl)
      have herase : ∀ u, s.agentOf u = some a → (s.opening.erase t).lookup u = s.opening.lookup u :=
        fun u hu => AList.lookup_erase_ne (ne_of_foreign hf hu)
      cases b with
      | waiting => cases hr
      | listening =>
        cases hr
        refine ⟨fun _ _ _ => Iff.rfl, fun u hu => ?_, herase, by simp [register]⟩
        have hfree := hI.id_free ht (hI.binding t hp).1
        exact (live_register hfree).trans (or_iff_right (ne_of_foreign hf hu))
      | failed message =>
        cases hr
        exact ⟨fun _ _ _ => Iff.rfl, fun _ _ => Iff.rfl, herase, Nat.le_refl _⟩
    · cases h
  | closeTunnel b id =>
    obtain ⟨r, hr, rfl⟩ := Option.map_eq_some_iff.mp h
    simp only [Relay.closeTunnel]
    split
    · exact .refl a s
    · rename_i t ht
      refine .close hI fun he => hf ?_
      have h1 := ((hI.agents b r hr).mem_of_lookup ht).2
      rw [h1] at he
      exact Option.some.inj he
  | close t =>
    cases h
    exact .close hI hf
  | closeAllFor b =>
    obtain ⟨r, hr, rfl⟩ := Option.map_eq_some_iff.mp h
    exact .closeAll hI (agentOf_values hI hr hf)
  | destroy b =>
    obtain ⟨r, hr, rfl⟩ := Option.map_eq_some_iff.mp h
    simp only [Relay.destroy]
    split
    · exact .refl a s
    · have h1 : Apart a s { s with agents := s.agents.modify b fun r => { r with closed := true } } :=
        ⟨fun _ _ _ => Iff.rfl, fun _ _ => Iff.rfl, fun _ _ => rfl, by simp⟩
      have hts := agentOf_values hI hr hf
      exact h1.trans (.closeAll (hI.hangUp b) hts)

end

end Relay

end UpTunnel
