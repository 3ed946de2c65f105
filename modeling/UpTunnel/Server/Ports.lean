import UpTunnel.Server.WellKept

/-!
# UpTunnel.Server.Ports

Which ports `claimPort` hands out. The scan for a free port computes
`min + ((nextPortHint - min + i + span) % span)` with a hint that tokens with different grants share,
and `%` keeps the sign of a negative dividend. So a hint far enough below `min` moves the scan below
the grant.

* `exists_candidate`: the scan tries exactly the ports from `min - below` to `max - below`, where
  `below` is `0` for a hint that is at least `min - span`.
* `complete_iff`: when the scan finds a free port of the grant whenever there is one, and none
  otherwise.
* `granted_iff`, `granted_run`: when the port is in the grant, for one call and for runs.
-/

namespace UpTunnel

/-! ## The ports that a scan tries -/

section
variable {min span hint port : Int} {i : Nat}

/-- A dividend that is not negative, or a multiple of `span`, gives a port of the range. -/
theorem candidate_mem_iff :
    min ≤ candidate min span hint i ↔ 0 ≤ hint - min + i + span ∨ span ∣ hint - min + i + span := by
  simp only [candidate]
  generalize hint - min + i + span = d
  by_cases hd : 0 ≤ d
  · have := Int.tmod_nonneg span hd
    simp only [hd, true_or, iff_true]
    omega
  · have hn := Int.tmod_nonneg span (show 0 ≤ -d by omega)
    rw [Int.neg_tmod] at hn
    rw [Int.dvd_iff_tmod_eq_zero]
    omega

theorem candidate_lt (hs : 0 < span) : candidate min span hint i < min + span := by
  have := Int.tmod_lt_of_pos (hint - min + i + span) hs
  simp only [candidate]
  omega

/-- How far below the range the scan lies. -/
def below (min span hint : Int) : Int := max 0 (Min.min (min - span - hint) (span - 1))

theorem exists_candidate (hs : 0 < span) :
    (∃ i, i < span.toNat ∧ candidate min span hint i = port) ↔
      min - below min span hint ≤ port ∧ port ≤ min + span - 1 - below min span hint := by
  have hmod : ∀ x : Int, 0 ≤ x % span ∧ x % span < span := fun x =>
    ⟨Int.emod_nonneg x (by omega), Int.emod_lt_of_pos x hs⟩
  -- the offset of the dividend in round 0
  obtain ⟨n, hn⟩ : ∃ n, n = min - span - hint := ⟨_, rfl⟩
  have hcand : ∀ i : Nat, candidate min span hint i = min + Int.tmod (i - n) span := by
    intro i
    rw [candidate, show hint - min + i + span = i - n by omega]
  simp only [hcand, below, ← hn]
  by_cases h0 : n ≤ 0
  · -- no dividend is negative: the rounds run through all residues
    rw [show max 0 (Min.min n (span - 1)) = 0 by omega]
    constructor
    · rintro ⟨i, _, rfl⟩
      rw [Int.tmod_eq_emod_of_nonneg (by omega)]
      have := hmod (i - n)
      omega
    · rintro ⟨h1, h2⟩
      have hr := hmod (port - min + n)
      refine ⟨((port - min + n) % span).toNat, by omega, ?_⟩
      rw [Int.tmod_eq_emod_of_nonneg (by omega), Int.toNat_of_nonneg hr.1, Int.emod_sub_emod,
        show port - min + n - n = port - min by omega, Int.emod_eq_of_lt (by omega) (by omega)]
      omega
  · by_cases h1 : n < span
    · -- the dividends run from `-n` through zero, none as large as `span`
      have hsmall : ∀ x : Int, -span < x → x < span → Int.tmod x span = x := by
        intro x hx1 hx2
        by_cases hx : 0 ≤ x
        · rw [Int.tmod_eq_emod_of_nonneg hx, Int.emod_eq_of_lt hx hx2]
        · have hneg : Int.tmod (-x) span = -x := by
            rw [Int.tmod_eq_emod_of_nonneg (by omega), Int.emod_eq_of_lt (by omega) (by omega)]
          rw [Int.neg_tmod] at hneg
          omega
      rw [show max 0 (Min.min n (span - 1)) = n by omega]
      constructor
      · rintro ⟨i, hi, rfl⟩
        rw [hsmall _ (by omega) (by omega)]
        omega
      · rintro ⟨h2, h3⟩
        refine ⟨(port - min + n).toNat, by omega, ?_⟩
        rw [hsmall _ (by omega) (by omega)]
        omega
    · -- every dividend is negative: the rounds run through all residues, with the sign turned
      have hneg : ∀ i : Nat, i < span.toNat → Int.tmod (i - n) span = -((n - i) % span) := by
        intro i hi
        rw [show (i : Int) - n = -(n - i) by omega, Int.neg_tmod, Int.tmod_eq_emod_of_nonneg (by omega)]
      rw [show max 0 (Min.min n (span - 1)) = span - 1 by omega]
      constructor
      · rintro ⟨i, hi, rfl⟩
        rw [hneg i hi]
        have := hmod (n - i)
        omega
      · rintro ⟨h2, h3⟩
        have hr := hmod (n - (min - port))
        refine ⟨((n - (min - port)) % span).toNat, by omega, ?_⟩
        rw [hneg _ (by omega), Int.toNat_of_nonneg hr.1, Int.sub_emod, Int.emod_emod, ← Int.sub_emod,
          show n - (n - (min - port)) = min - port by omega, Int.emod_eq_of_lt (by omega) (by omega)]
        omega

theorem scan_eq_none {taken : Int → Bool} :
    ∀ {n i : Nat}, scan taken min span hint n i = none ↔
      ∀ j, i ≤ j → j < i + n → taken (candidate min span hint j) = true
  | 0, i => by
    simp only [scan, true_iff]
    intro j h1 h2
    omega
  | n + 1, i => by
    simp only [scan]
    cases ht : taken (candidate min span hint i) with
    | true =>
      rw [if_pos rfl, scan_eq_none]
      constructor
      · intro h j h1 h2
        rcases Nat.eq_or_lt_of_le h1 with rfl | h1
        · exact ht
        · exact h j h1 (by omega)
      · exact fun h j h1 h2 => h j (by omega) (by omega)
    | false =>
      rw [if_neg (by simp)]
      constructor
      · intro h
        cases h
      · intro h
        rw [h i (Nat.le_refl _) (by omega)] at ht
        cases ht

end

/-! ## Completeness -/

namespace Registry

variable (cfg : Config) (s : Registry) (token : TokenEntry)

/-- All ports from `lo` to `hi` are in `byPort`. -/
def Full (lo hi : Int) : Prop := ∀ port, lo ≤ port → port ≤ hi → port ∈ s.byPort

/-- Without a requested port, `claimPort` fails exactly when the grant is full. -/
def Complete : Prop :=
  ((∃ e, s.claimPort cfg token none = .error e ∧ e.code = "no_ports_available") ↔
    s.Full (portRange cfg token).1 (portRange cfg token).2) ∧
  (¬ s.Full (portRange cfg token).1 (portRange cfg token).2 →
    ∃ port hint, s.claimPort cfg token none = .ok (port, hint) ∧ port ∉ s.byPort)

/-- How far below the grant the scan of `claimPort` lies. -/
def slip : Int :=
  below (portRange cfg token).1 ((portRange cfg token).2 - (portRange cfg token).1 + 1) s.nextPortHint

/-- The scan lies in the grant, or it meets a free port of the grant, or the ports it tries below
the grant are all taken exactly if the ports of the grant that it does not try are. -/
def ScanSuffices : Prop :=
  let (min, max) := portRange cfg token
  let m := s.slip cfg token
  m = 0 ∨ ¬ s.Full min (max - m) ∨ (s.Full (min - m) (min - 1) ↔ s.Full (max - m + 1) max)

theorem slip_bounds : 0 ≤ s.slip cfg token ∧
    s.slip cfg token ≤ max 0 ((portRange cfg token).2 - (portRange cfg token).1) := by
  simp only [slip, below]
  omega

variable {s}

theorem full_append {lo mid hi : Int} (h1 : lo ≤ mid) (h2 : mid ≤ hi + 1) :
    s.Full lo hi ↔ s.Full lo (mid - 1) ∧ s.Full mid hi := by
  constructor
  · exact fun h => ⟨fun p hp1 hp2 => h p hp1 (by omega), fun p hp1 hp2 => h p (by omega) hp2⟩
  · rintro ⟨hl, hr⟩ p hp1 hp2
    by_cases hp : p < mid
    · exact hl p hp1 (by omega)
    · exact hr p (by omega) hp2

theorem full_of_lt {lo hi : Int} (h : hi < lo) : s.Full lo hi := fun p h1 h2 => absurd h1 (by omega)

variable (s)

/-- `claimPort` without a requested port fails when all the ports that the scan tries are taken, and
only then. -/
theorem claimPort_cases :
    ((∃ e, s.claimPort cfg token none = .error e ∧ e.code = "no_ports_available") ∧
      s.Full ((portRange cfg token).1 - s.slip cfg token) ((portRange cfg token).2 - s.slip cfg token)) ∨
    ((∃ port hint, s.claimPort cfg token none = .ok (port, hint) ∧ port ∉ s.byPort) ∧
      ¬ s.Full ((portRange cfg token).1 - s.slip cfg token) ((portRange cfg token).2 - s.slip cfg token)) := by
  obtain ⟨min, max, hr⟩ : ∃ min max, portRange cfg token = (min, max) := ⟨_, _, rfl⟩
  have hslip : s.slip cfg token = below min (max - min + 1) s.nextPortHint := by simp [slip, hr]
  simp only [claimPort, hr]
  by_cases hspan : 0 < max - min + 1
  · have hall : ∀ port, (∃ i, i < (max - min + 1).toNat ∧
        candidate min (max - min + 1) s.nextPortHint i = port) ↔ _ := fun _ => exists_candidate hspan
    cases hscan : scan (fun port => port ∈ s.byPort) min (max - min + 1) s.nextPortHint
        (max - min + 1).toNat 0 with
    | none =>
      left
      refine ⟨⟨_, rfl, rfl⟩, fun port h1 h2 => ?_⟩
      obtain ⟨i, hi, rfl⟩ := (hall port).mpr (by rw [← hslip]; omega)
      simpa using scan_eq_none.mp hscan i (by omega) (by omega)
    | some port =>
      right
      obtain ⟨j, _, hj, rfl, hfree, _⟩ := scan_eq_some.mp hscan
      have hf : candidate min (max - min + 1) s.nextPortHint j ∉ s.byPort := by simpa using hfree
      refine ⟨⟨_, _, rfl, hf⟩, fun hfull => hf (hfull _ ?_ ?_)⟩
      · have := (hall _).mp ⟨j, by omega, rfl⟩
        omega
      · have := (hall _).mp ⟨j, by omega, rfl⟩
        omega
  · left
    rw [show (max - min + 1).toNat = 0 by omega]
    refine ⟨⟨_, rfl, rfl⟩, full_of_lt ?_⟩
    have := (slip_bounds cfg s token).1
    omega

/-- `claimPort` without a requested port is complete exactly if its scan suffices. -/
theorem complete_iff : s.Complete cfg token ↔ s.ScanSuffices cfg token := by
  obtain ⟨min, max, hr⟩ : ∃ min max, portRange cfg token = (min, max) := ⟨_, _, rfl⟩
  have hcases := claimPort_cases cfg s token
  have hslip := slip_bounds cfg s token
  simp only [Complete, ScanSuffices, hr] at hcases hslip ⊢
  generalize s.slip cfg token = m at hcases hslip ⊢
  -- the ports that are tried and the grant have the ports from `min` to `max - m` in common
  have htried : s.Full (min - m) (max - m) ↔ s.Full (min - m) (min - 1) ∧ s.Full min (max - m) := by
    by_cases hm : max < min
    · exact iff_of_true (full_of_lt (by omega)) ⟨full_of_lt (by omega), full_of_lt (by omega)⟩
    · exact full_append (by omega) (by omega)
  have hgrant : s.Full min max ↔ s.Full min (max - m) ∧ s.Full (max - m + 1) max := by
    by_cases hm : max < min
    · exact iff_of_true (full_of_lt (by omega)) ⟨full_of_lt (by omega), full_of_lt (by omega)⟩
    · have h : s.Full min max ↔ s.Full min (max - m + 1 - 1) ∧ s.Full (max - m + 1) max :=
        full_append (by omega) (by omega)
      simpa using h
  have h0 : m = 0 → s.Full (min - m) (min - 1) ∧ s.Full (max - m + 1) max := fun h =>
    ⟨full_of_lt (by omega), full_of_lt (by omega)⟩
  rcases hcases with ⟨herr, hfull⟩ | ⟨⟨port, hint, hok, hfree⟩, hfull⟩
  · obtain ⟨e, he, hcode⟩ := herr
    constructor
    · rintro ⟨hiff, _⟩
      have := hgrant.mp (hiff.mp ⟨e, he, hcode⟩)
      exact .inr (.inr (iff_of_true (htried.mp hfull).1 this.2))
    · intro hs
      have hall : s.Full min max := by
        rw [hgrant]
        obtain ⟨hl, ho⟩ := htried.mp hfull
        refine ⟨ho, ?_⟩
        rcases hs with hm | hn | hiff
        · exact (h0 hm).2
        · exact absurd ho hn
        · exact hiff.mp hl
      exact ⟨iff_of_true ⟨e, he, hcode⟩ hall, fun h => absurd hall h⟩
  · have hno : ¬ ∃ e, s.claimPort cfg token none = .error e ∧ e.code = "no_ports_available" := by
      rintro ⟨e, he, _⟩
      rw [hok] at he
      cases he
    constructor
    · rintro ⟨hiff, _⟩
      have hnot : ¬ s.Full min max := fun h => hno (hiff.mpr h)
      rw [hgrant] at hnot
      rw [htried] at hfull
      tauto
    · intro hs
      have hnot : ¬ s.Full min max := by
        rw [hgrant]
        rw [htried] at hfull
        rintro ⟨ho, ht⟩
        rcases hs with hm | hn | hiff
        · exact hfull ⟨(h0 hm).1, ho⟩
        · exact hn ho
        · exact hfull ⟨hiff.mpr ht, ho⟩
      exact ⟨iff_of_false hno hnot, fun _ => ⟨port, hint, hok, hfree⟩⟩

/-! ## Grants -/

/-- `port` lies in the grant of the token, if it has one, and in the range of the server. -/
def Granted (cfg : Config) (token : TokenEntry) (port : Int) : Prop :=
  (∀ lo hi, token.ports = some (lo, hi) → lo ≤ port ∧ port ≤ hi) ∧
    cfg.tcpPortMin ≤ port ∧ port ≤ cfg.tcpPortMax

/-- The first free port that the scan meets belongs to a negative dividend that is no multiple of
`span`. -/
def Underflows : Prop :=
  let (min, max) := portRange cfg token
  let span := max - min + 1
  ∃ i < span.toNat, s.nextPortHint - min + i + span < 0 ∧ ¬ span ∣ s.nextPortHint - min + i + span ∧
    candidate min span s.nextPortHint i ∉ s.byPort ∧
    ∀ k < i, candidate min span s.nextPortHint k ∈ s.byPort

variable {cfg s token} {port hint : Int}

theorem granted_iff_range :
    Granted cfg token port ↔ (portRange cfg token).1 ≤ port ∧ port ≤ (portRange cfg token).2 := by
  simp only [Granted, portRange]
  cases token.ports with
  | none =>
    simp only [reduceCtorEq, false_implies, implies_true, true_and, Option.getD_none]
    omega
  | some range =>
    obtain ⟨lo, hi⟩ := range
    simp only [Option.some.injEq, Prod.mk.injEq, Option.getD_some]
    constructor
    · rintro ⟨h, _⟩
      have := h lo hi ⟨rfl, rfl⟩
      omega
    · intro h
      refine ⟨?_, by omega⟩
      rintro _ _ ⟨rfl, rfl⟩
      omega

theorem granted_of_requested {requested : Int}
    (h : s.claimPort cfg token (some requested) = .ok (port, hint)) : Granted cfg token port := by
  rw [granted_iff_range]
  simp only [claimPort] at h
  split at h
  · cases h
  split at h
  · cases h
  · cases h
    omega

/-- A port that `claimPort` has picked lies in the grant exactly if the scan has not gone below it. -/
theorem granted_iff (h : s.claimPort cfg token none = .ok (port, hint)) :
    Granted cfg token port ↔ ¬ s.Underflows cfg token := by
  obtain ⟨min, max, hr⟩ : ∃ min max, portRange cfg token = (min, max) := ⟨_, _, rfl⟩
  simp only [granted_iff_range, Underflows, claimPort, hr] at h ⊢
  split at h
  · rename_i p hscan
    cases h
    obtain ⟨j, _, hj, rfl, hfree, hbefore⟩ := scan_eq_some.mp hscan
    simp only [decide_eq_false_iff_not, decide_eq_true_eq] at hfree hbefore
    have hspan : 0 < max - min + 1 := by omega
    have hlt : candidate min _ s.nextPortHint j < _ := candidate_lt hspan
    constructor
    · rintro ⟨hge, _⟩ ⟨i, _, hneg, hdvd, hfree', hbefore'⟩
      -- the first free candidate is the one of round `j`
      have hij : i = j := by
        rcases Nat.lt_trichotomy i j with hlt | he | hgt
        · exact absurd (hbefore i (Nat.zero_le _) hlt) hfree'
        · exact he
        · exact absurd (hbefore' j hgt) hfree
      subst hij
      exact (candidate_mem_iff.mp hge).elim (fun h => by omega) hdvd
    · intro hno
      refine ⟨?_, by omega⟩
      rw [candidate_mem_iff]
      by_contra hc
      rw [not_or] at hc
      exact hno ⟨j, by omega, by omega, hc.2, hfree, fun k hk => hbefore k (Nat.zero_le _) hk⟩
  · cases h

theorem claimPort_of_underflows (h : s.Underflows cfg token) :
    ∃ port hint, s.claimPort cfg token none = .ok (port, hint) ∧ ¬ Granted cfg token port := by
  obtain ⟨min, max, hr⟩ : ∃ min max, portRange cfg token = (min, max) := ⟨_, _, rfl⟩
  have hu := h
  simp only [Underflows, hr] at hu
  obtain ⟨i, hi, _, _, hfree, hbefore⟩ := hu
  have hscan : scan (fun port => port ∈ s.byPort) min (max - min + 1) s.nextPortHint
      (max - min + 1).toNat 0 = some (candidate min (max - min + 1) s.nextPortHint i) :=
    scan_eq_some.mpr ⟨i, by omega, by omega, rfl, by simpa using hfree,
      fun k _ hk => by simpa using hbefore k hk⟩
  have hc : ∃ port hint, s.claimPort cfg token none = .ok (port, hint) := by
    simp only [claimPort, hr, hscan]
    exact ⟨_, _, rfl⟩
  obtain ⟨port, hint, hc⟩ := hc
  exact ⟨port, hint, hc, fun hg => (granted_iff hc).mp hg h⟩

end Registry

namespace Relay

variable {cfg : Config} {s s' : Relay}

/-- The picked port of an `open` is not one below the grant. -/
def NoUnderflow (cfg : Config) (s : Relay) : Event → Prop
  | .openTunnel a req _ => ∀ r, s.agents[a]? = some r → BelowCap r → req.ask = .tcp none →
    ¬ s.Underflows cfg r.token
  | _ => True

/-- Every port that was handed out lies in the grant of the session's token, and `byPort` has only
ports that were handed out. -/
structure AllGranted (cfg : Config) (s : Relay) : Prop where
  tunnels : ∀ (t : Nat) (tn : Tunnel) port, s.tunnels[t]? = some tn → tn.publicPort = some port →
    ∃ r, s.agents[tn.agent]? = some r ∧ Registry.Granted cfg r.token port
  byPort : ∀ port t, s.byPort.lookup port = some t → s.portOf t = some port

/-- What an event other than `open` leaves of tunnels, tokens and ports. -/
structure Frame (s s' : Relay) : Prop where
  same : SameTunnels s s'
  agents : ∀ (a : Nat) (r : Registrant), s.agents[a]? = some r →
    ∃ r', s'.agents[a]? = some r' ∧ r'.token = r.token
  byPort : ∀ port t, s'.byPort.lookup port = some t → s.byPort.lookup port = some t

theorem Frame.refl (s : Relay) : Frame s s := ⟨fun _ => rfl, fun _ r h => ⟨r, h, rfl⟩, fun _ _ h => h⟩

theorem Frame.trans {s'' : Relay} (h : Frame s s') (h' : Frame s' s'') : Frame s s'' where
  same := fun u => (h'.same u).trans (h.same u)
  agents := by
    intro a r hr
    obtain ⟨r', hr', he⟩ := h.agents a r hr
    obtain ⟨r'', hr'', he'⟩ := h'.agents a r' hr'
    exact ⟨r'', hr'', he'.trans he⟩
  byPort := fun p t hp => h.byPort p t (h'.byPort p t hp)

/-- A session is changed, but not its token. -/
theorem token_modify {f : Registrant → Registrant} {a : Nat} (ha : s'.agents = s.agents.modify a f)
    (hf : ∀ r, (f r).token = r.token) (b : Nat) (r : Registrant) (hr : s.agents[b]? = some r) :
    ∃ r', s'.agents[b]? = some r' ∧ r'.token = r.token := by
  rw [ha, List.getElem?_modify, hr]
  refine ⟨_, rfl, ?_⟩
  split
  · exact hf r
  · rfl

theorem Closes.frame (h : Closes s s') : Frame s s' where
  same := h.same
  agents := fun _ _ hr => by
    obtain ⟨r', hr', htok, _⟩ := h.agent_of hr
    exact ⟨r', hr', htok⟩
  byPort := h.byPort

theorem Frame.close (s : Relay) (t : Nat) : Frame s (s.close t) := (Closes.close s t).frame

theorem Frame.closeAllFor (s : Relay) (r : Registrant) : Frame s (s.closeAllFor r) :=
  (Closes.closeAll s _).frame

/-- An event is an `open` that goes through, or it leaves tunnels, tokens and ports. -/
theorem step_frame {e : Event} (h : step cfg s e = some s') :
    (∃ a req id r, e = .openTunnel a req id ∧ s.agents[a]? = some r ∧ s.begin cfg a r req id = .ok s') ∨
      Frame s s' := by
  cases e with
  | connect token clientName =>
    cases h
    refine .inr ⟨fun _ => rfl, fun a r hr => ⟨r, ?_, rfl⟩, fun _ _ h => h⟩
    rw [List.getElem?_append_left (List.getElem?_eq_some_iff.mp hr).1]
    exact hr
  | openTunnel a req id =>
    obtain ⟨r, hr, rfl⟩ := Option.map_eq_some_iff.mp h
    cases hb : s.begin cfg a r req id with
    | error e => exact .inr (.refl s)
    | ok s' => exact .inl ⟨a, req, id, r, rfl, hr, hb⟩
  | listening t =>
    simp only [step] at h
    split at h
    · cases h
      exact .inr ⟨fun u => fixed_modify s.tunnels t u true, fun _ r hr => ⟨r, hr, rfl⟩, fun _ _ h => h⟩
    · cases h
  | listenError t message =>
    simp only [step] at h
    split at h
    · cases h
      exact .inr ⟨fun _ => rfl, fun _ r hr => ⟨r, hr, rfl⟩, fun _ _ h => h⟩
    · cases h
  | resume t =>
    simp only [step] at h
    split at h
    · obtain ⟨⟨s1, e⟩, hr, rfl⟩ := Option.map_eq_some_iff.mp h
      right
      rename_i b tn ho ht
      cases b with
      | waiting => cases hr
      | listening =>
        cases hr
        exact ⟨fun _ => rfl, token_modify rfl fun _ => rfl, fun _ _ h => h⟩
      | failed message =>
        cases hr
        exact ⟨fun _ => rfl, fun _ r hr => ⟨r, hr, rfl⟩, fun _ _ h => lookup_eraseKey h⟩
    · cases h
  | closeTunnel a id =>
    obtain ⟨r, hr, rfl⟩ := Option.map_eq_some_iff.mp h
    right
    simp only [closeTunnel]
    split
    · exact .refl s
    · exact .close s _
  | close t =>
    cases h
    exact .inr (.close s t)
  | closeAllFor a =>
    obtain ⟨r, hr, rfl⟩ := Option.map_eq_some_iff.mp h
    exact .inr (.closeAllFor s r)
  | destroy a =>
    obtain ⟨r, hr, rfl⟩ := Option.map_eq_some_iff.mp h
    right
    simp only [destroy]
    split
    · exact .refl s
    · refine Frame.trans ?_ (.closeAllFor _ r)
      exact ⟨fun _ => rfl, token_modify rfl fun _ => rfl, fun _ _ h => h⟩

theorem AllGranted.frame (h : s.AllGranted cfg) (hf : Frame s s') : s'.AllGranted cfg where
  tunnels := by
    intro t tn' port ht hp
    have hsame := hf.same t
    rw [ht, Option.map_some, eq_comm, Option.map_eq_some_iff] at hsame
    obtain ⟨tn, htn, he⟩ := hsame
    have hplace : tn.place = tn'.place := congrArg (·.2.1) he
    have hagent : tn.agent = tn'.agent := congrArg (·.2.2) he
    obtain ⟨r, hr, hg⟩ := h.tunnels t tn port htn (by simpa [Tunnel.publicPort, hplace] using hp)
    obtain ⟨r', hr', htok⟩ := hf.agents _ r hr
    exact ⟨r', hagent ▸ hr', htok ▸ hg⟩
  byPort := by
    intro port t hp
    rw [hf.same.portOf]
    exact h.byPort port t (hf.byPort port t hp)

theorem portOf_concat {t : Nat} {tn : Tunnel} {port : Int} (h : s'.tunnels = s.tunnels ++ [tn])
    (ht : s.portOf t = some port) : s'.portOf t = some port := by
  have hne : t ≠ s.tunnels.length := by
    rintro rfl
    simp [portOf] at ht
  rw [portOf, h, getElem?_concat, if_neg hne]
  exact ht

/-- The ports stay granted when the port of the new tunnel, if it has one, is granted. -/
theorem AllGranted.concat {r : Registrant} {tn : Tunnel} (h : s.AllGranted cfg)
    (htn : s'.tunnels = s.tunnels ++ [tn]) (hr : s.agents[tn.agent]? = some r)
    (hag : ∀ (b : Nat) (r : Registrant), s.agents[b]? = some r →
      ∃ r', s'.agents[b]? = some r' ∧ r'.token = r.token)
    (hport : ∀ port, tn.publicPort = some port → Registry.Granted cfg r.token port)
    (hby : ∀ port t, s'.byPort.lookup port = some t →
      s.byPort.lookup port = some t ∨ tn.publicPort = some port ∧ t = s.tunnels.length) :
    s'.AllGranted cfg where
  tunnels := by
    intro t tn' port ht hp
    rw [htn, getElem?_concat] at ht
    split at ht
    · cases ht
      obtain ⟨r', hr', htok⟩ := hag _ r hr
      exact ⟨r', hr', htok ▸ hport port hp⟩
    · obtain ⟨r0, hr0, hg⟩ := h.tunnels t tn' port ht hp
      obtain ⟨r', hr', htok⟩ := hag _ r0 hr0
      exact ⟨r', hr', htok ▸ hg⟩
  byPort := by
    intro port t hp
    rcases hby port t hp with hold | ⟨hnew, rfl⟩
    · exact portOf_concat htn (h.byPort port t hold)
    · simp [portOf, htn, hnew]

theorem AllGranted.begin {a : Nat} {r : Registrant} {req : OpenTunnelRequest} {id : String}
    (h : s.AllGranted cfg) (hr : s.agents[a]? = some r) (hb : s.begin cfg a r req id = .ok s')
    (hok : s.NoUnderflow cfg (.openTunnel a req id)) : s'.AllGranted cfg := by
  obtain ⟨hcap, ⟨sub, tn, _, rfl, _, _, rfl⟩ | ⟨remotePort, port, hint, tn, hask, hc, rfl, rfl⟩⟩ := begin_cases hb
  · exact h.concat rfl hr (token_modify rfl fun _ => rfl) (fun _ hp => by cases hp)
      fun _ _ hp => .inl hp
  · refine h.concat rfl hr (fun _ r hr => ⟨r, hr, rfl⟩) ?_ ?_
    · intro p hp
      cases hp
      cases remotePort with
      | none => exact (Registry.granted_iff hc).mpr (hok r hr hcap hask)
      | some requested => exact Registry.granted_of_requested hc
    · intro p t hp
      simp only [Dict.lookup_insert_ite] at hp
      split at hp
      · rename_i he
        cases hp
        exact .inr ⟨congrArg some he.symm, rfl⟩
      · exact .inl hp

theorem AllGranted.step {e : Event} (h : s.AllGranted cfg) (hok : s.NoUnderflow cfg e)
    (hs : Relay.step cfg s e = some s') : s'.AllGranted cfg := by
  rcases step_frame hs with ⟨a, req, id, r, rfl, hr, hb⟩ | hf
  · exact h.begin hr hb hok
  · exact h.frame hf

theorem AllGranted.start (cfg : Config) : (Relay.new cfg).AllGranted cfg where
  tunnels := by intro t tn port h; simp [Relay.new] at h
  byPort := by intro port t h; simp [Relay.new] at h

/-- An `open` whose scan goes below the grant hands out a port that is not granted. -/
theorem not_allGranted_step {e : Event} (hok : ¬ s.NoUnderflow cfg e)
    (hs : Relay.step cfg s e = some s') : ¬ s'.AllGranted cfg := by
  cases e with
  | openTunnel a req id =>
    simp only [NoUnderflow, not_forall, not_not] at hok
    obtain ⟨r, hr, hcap, hask, hu⟩ := hok
    obtain ⟨port, hint, hc, hng⟩ := Registry.claimPort_of_underflows hu
    obtain ⟨reqId, ask, target⟩ := req
    cases hask
    simp only [Relay.step, hr, Option.map_some, Relay.begin, hc, show numLe _ _ = false from hcap,
      Bool.false_eq_true, if_false, Option.some.injEq] at hs
    subst hs
    intro h
    obtain ⟨r', hr', hg⟩ := h.tunnels s.tunnels.length _ port List.getElem?_concat_length rfl
    rw [hr] at hr'
    cases hr'
    exact hng hg
  | _ => exact absurd trivial hok

/-- In every run in which no scan goes below the grant, the ports handed out are granted; and a scan
that does go below it hands out one that is not. -/
theorem granted_run (cfg : Config) :
    (∀ s, Lts.Reach (Lts.ofFn (step cfg)) (NoUnderflow cfg) (· = Relay.new cfg) s → s.AllGranted cfg) ∧
    ∀ s e s', ¬ s.NoUnderflow cfg e → step cfg s e = some s' → ¬ s'.AllGranted cfg := by
  refine ⟨fun s h => ?_, fun s e s' hok hs => not_allGranted_step hok hs⟩
  refine h.invariant ?_ fun s e s' _ hI hok hs => hI.step hok hs
  rintro _ rfl
  exact AllGranted.start cfg

instance (s : Registry) (cfg : Config) (token : TokenEntry) : Decidable (s.Underflows cfg token) := by
  unfold Registry.Underflows
  infer_instance

instance (s : Relay) (cfg : Config) (e : Event) : Decidable (s.NoUnderflow cfg e) :=
  match e with
  | .openTunnel a req id =>
    match h : s.agents[a]? with
    | none => .isTrue (by simp [NoUnderflow, h])
    | some r =>
      decidable_of_iff
        (numLe (r.token.maxTunnels.getD (.fin DEFAULT_MAX_TUNNELS)) r.tunnels.size = false →
          req.ask = .tcp none → ¬ s.Underflows cfg r.token)
        (by simp [NoUnderflow, h, BelowCap])
  | .connect .. | .listening .. | .listenError .. | .resume .. | .closeTunnel .. | .close .. | .closeAllFor ..
  | .destroy .. => .isTrue trivial

def lowToken : TokenEntry := { smallToken with token := "0123456789abcde0", ports := some (20000, 20010) }

def highToken : TokenEntry := { smallToken with token := "0123456789abcde1", ports := some (20050, 20059) }

/-- The two agents move one hint, from 20000 to 20051 and back to 20008. -/
def sharedHintRun : List Event :=
  [.connect lowToken "low", .connect highToken "high",
    .openTunnel 1 ⟨some "r1", .tcp none, smallTarget⟩ "tn_1", .listening 0, .resume 0,
    .openTunnel 0 ⟨some "r2", .tcp none, smallTarget⟩ "tn_2", .listenError 1 "EADDRINUSE", .resume 1,
    .openTunnel 1 ⟨some "r3", .tcp (some 20055), smallTarget⟩ "tn_3", .listening 2, .resume 2]

/-- As long as the hint is not too far below, both agents get what they are granted; with the hint at
20008 the next port for the second agent is not. -/
theorem granted_sharedHintRun : ∃ s s' : Relay,
    [s.portOf 0, s.portOf 1, s.portOf 2] = [some 20050, some 20007, some 20055] ∧ s.AllGranted smallConfig ∧
      step smallConfig s (.openTunnel 1 ⟨some "r4", .tcp none, smallTarget⟩ "tn_4") = some s' ∧
      ¬ s'.AllGranted smallConfig := by
  let e : Event := .openTunnel 1 ⟨some "r4", .tcp none, smallTarget⟩ "tn_4"
  have hx : (Lts.execOk (step smallConfig) (NoUnderflow smallConfig) (Relay.new smallConfig) sharedHintRun).map
      (fun s => [s.portOf 0, s.portOf 1, s.portOf 2] == [some 20050, some 20007, some 20055] &&
        decide (¬ s.NoUnderflow smallConfig e) && (step smallConfig s e).isSome) = some true := by decide +kernel
  obtain ⟨s, hs, hc⟩ := Option.map_eq_some_iff.mp hx
  simp only [Bool.and_eq_true, beq_iff_eq, decide_eq_true_eq] at hc
  obtain ⟨⟨hports, hunder⟩, hsome⟩ := hc
  obtain ⟨s', hs'⟩ := Option.isSome_iff_exists.mp hsome
  have h0 : Lts.Reach (Lts.ofFn (step smallConfig)) (NoUnderflow smallConfig) (· = Relay.new smallConfig)
      (Relay.new smallConfig) := .start rfl
  exact ⟨s, s', hports, (granted_run smallConfig).1 s (h0.execOk hs), hs',
    (granted_run smallConfig).2 s e s' hunder hs'⟩

/-! ## A hint below the grant -/

/-- The first tunnel moves the hint to 20001, where the scan for the second starts at
`20050 + (-39 % 10)`. -/
def lowHintRun : List Event :=
  [.connect lowToken "low", .connect highToken "high",
    .openTunnel 0 ⟨some "r1", .tcp none, smallTarget⟩ "tn_1",
    .openTunnel 1 ⟨some "r2", .tcp none, smallTarget⟩ "tn_2"]

theorem lowHintRun_ends : ∃ s, Lts.exec (step smallConfig) (Relay.new smallConfig) lowHintRun = some s ∧
    s.tunnels.map (fun tn => (tn.agent, tn.publicPort)) = [(0, some 20000), (1, some 20041)] ∧
    s.agents.map (·.token.ports) = [some (20000, 20010), some (20050, 20059)] := by
  have hx : (Lts.exec (step smallConfig) (Relay.new smallConfig) lowHintRun).map (fun s =>
      s.tunnels.map (fun tn => (tn.agent, tn.publicPort)) == [(0, some 20000), (1, some 20041)] &&
        s.agents.map (·.token.ports) == [some (20000, 20010), some (20050, 20059)]) = some true := by
    decide +kernel
  obtain ⟨s, hs, hc⟩ := Option.map_eq_some_iff.mp hx
  simp only [Bool.and_eq_true, beq_iff_eq] at hc
  exact ⟨s, hs, hc⟩

/-- Not all ports that are handed out are granted. -/
theorem not_granted : ¬ ∀ (cfg : Config) (s : Relay),
    Lts.Reachable (Lts.ofFn (step cfg)) (· = Relay.new cfg) s → s.AllGranted cfg := by
  intro h
  obtain ⟨s, hx, ht, ha⟩ := lowHintRun_ends
  have h0 : Lts.Reachable (Lts.ofFn (step smallConfig)) (· = Relay.new smallConfig)
      (Relay.new smallConfig) := .start rfl
  have ht1 : (s.tunnels.map fun tn => (tn.agent, tn.publicPort))[1]? = some (1, some 20041) := by rw [ht]; rfl
  have ha1 : (s.agents.map (·.token.ports))[1]? = some (some (20050, 20059)) := by rw [ha]; rfl
  rw [List.getElem?_map, Option.map_eq_some_iff] at ht1 ha1
  obtain ⟨tn, htn, he⟩ := ht1
  obtain ⟨r, hr, hports⟩ := ha1
  obtain ⟨hag, hport⟩ := Prod.mk.injEq .. ▸ he
  obtain ⟨r', hr', hg, _⟩ := (h smallConfig s (h0.exec hx)).tunnels 1 tn 20041 htn hport
  rw [hag, hr] at hr'
  cases hr'
  exact absurd (hg _ _ hports).1 (by decide)

/-! ## A full grant that is not noticed -/

def narrowToken : TokenEntry :=
  { smallToken with token := "0123456789abcde2", ports := some (20050, 20052) }

/-- All three ports of the grant are taken by request. -/
def fullGrantRun : List Event :=
  [.connect lowToken "low", .connect narrowToken "narrow",
    .openTunnel 0 ⟨some "r1", .tcp none, smallTarget⟩ "tn_1",
    .openTunnel 1 ⟨some "r2", .tcp (some 20050), smallTarget⟩ "tn_2",
    .openTunnel 1 ⟨some "r3", .tcp (some 20051), smallTarget⟩ "tn_3",
    .openTunnel 1 ⟨some "r4", .tcp (some 20052), smallTarget⟩ "tn_4"]

theorem fullGrantRun_ends : ∃ s,
    Lts.exec (step smallConfig) (Relay.new smallConfig) fullGrantRun = some s ∧
    s.claimPort smallConfig narrowToken none = .ok (20049, 20050) ∧
    20050 ∈ s.byPort ∧ 20051 ∈ s.byPort ∧ 20052 ∈ s.byPort := by
  have hx : (Lts.exec (step smallConfig) (Relay.new smallConfig) fullGrantRun).map (fun s =>
      (s.claimPort smallConfig narrowToken none).toOption == some (20049, 20050) &&
        (decide (20050 ∈ s.byPort) && (decide (20051 ∈ s.byPort) && decide (20052 ∈ s.byPort)))) =
      some true := by decide +kernel
  obtain ⟨s, hs, hc⟩ := Option.map_eq_some_iff.mp hx
  simp only [Bool.and_eq_true, beq_iff_eq, decide_eq_true_eq] at hc
  refine ⟨s, hs, ?_, hc.2⟩
  cases he : s.claimPort smallConfig narrowToken none with
  | error e => simp [he, Except.toOption] at hc
  | ok p => simpa [he, Except.toOption] using hc.1

/-- In a reached state `claimPort` can hand out a port although the grant is full. -/
theorem not_complete : ¬ ∀ (cfg : Config) (s : Relay) (token : TokenEntry),
    Lts.Reachable (Lts.ofFn (step cfg)) (· = Relay.new cfg) s → s.Complete cfg token := by
  intro h
  obtain ⟨s, hx, hok, h0, h1, h2⟩ := fullGrantRun_ends
  have hstart : Lts.Reachable (Lts.ofFn (step smallConfig)) (· = Relay.new smallConfig)
      (Relay.new smallConfig) := .start rfl
  have hfull : s.Full 20050 20052 := by
    intro port hlo hhi
    obtain rfl | rfl | rfl : port = 20050 ∨ port = 20051 ∨ port = 20052 := by omega
    · exact h0
    · exact h1
    · exact h2
  obtain ⟨e, he, _⟩ := (h smallConfig s narrowToken (hstart.exec hx)).1.mpr hfull
  rw [hok] at he
  cases he

end Relay

end UpTunnel
