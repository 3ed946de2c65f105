import UpTunnel.Gate
import UpTunnel.Lib.Dict

/-!
# UpTunnel.Owner

What `AgentSession` and `Agent` do alike: they keep a table of streams by id, send frames over one
WebSocket, and pause and resume every stream of the table as that WebSocket fills and drains.

The table holds references. A `Hub` keeps every stream object ever made in a list, and the table
maps an id to an address in it; so a stream that has left the table is still there to look at.

* `Hub.All`: a property of every stream object, given the owner's congestion and whether the table
  holds the object; `All.send`, `All.put`, … say what keeps it.
-/

namespace UpTunnel

open Js

/-- What an owner needs to know of a stream. -/
class StreamObj (α : Type) where
  base : α → Endpoint
  setGlobalPause : Bool → α → α

instance : StreamObj Endpoint where
  base := id
  setGlobalPause := Endpoint.setGlobalPause

instance : StreamObj ClientStream where
  base := ClientStream.toEndpoint
  setGlobalPause := ClientStream.setGlobalPause

structure Hub (α : Type) where
  /-- Every stream object made so far; an address is an index. -/
  objs : List α
  /-- `streams`: the address of the stream that an id names. -/
  streams : Dict Nat Nat
  wire : Wire

namespace Hub

variable {α : Type} [StreamObj α]

open StreamObj

/-- The table holds the object at `a`. -/
def listed (h : Hub α) (a : Nat) : Bool := decide (a ∈ h.streams.values)

/-- `for (const s of this.streams.values()) s.setGlobalPause(b)` -/
def pauseAll (b : Bool) (h : Hub α) : Hub α :=
  { h with objs := h.objs.mapIdx fun a s => if h.listed a then setGlobalPause b s else s }

variable (env : WireEnv)

/-- `send`, for a frame that comes from the owner itself. -/
def send (h : Hub α) (f : Frame) : Hub α :=
  let w := h.wire.send env f
  let h' := { h with wire := w }
  if w.congested && !h.wire.congested then h'.pauseAll true else h'

def clearCongestion (h : Hub α) : Hub α :=
  let h := { h with wire := { h.wire with congestionTimer := false } }
  if !h.wire.congested then h
  else { h with wire := { h.wire with congested := false } }.pauseAll false

/-- The callback of the congestion timer; `buffered` is what `ws.bufferedAmount` reads. -/
def poll (h : Hub α) (buffered : Nat) : Hub α :=
  if h.wire.closed || (buffered : Int) ≤ env.wsMaxBuffered / 2 then h.clearCongestion else h

/-- A new stream object, and its entry in the table. -/
def insert (h : Hub α) (id : Nat) (s : α) : Hub α :=
  { h with objs := h.objs ++ [s], streams := h.streams.insert id h.objs.length }

/-- A method of the object `s` at `a` has made it `r.1` and the WebSocket `r.2`. Where it started
congestion the other streams are paused as well; where it finished the stream,
`onStreamFinished(id)` takes the id out of the table. -/
def put (h : Hub α) (a : Nat) (s : α) (r : α × Wire) : Hub α where
  objs := (h.objs.set a r.1).mapIdx fun a' t =>
    if r.2.congested && !h.wire.congested && a' != a && h.listed a' then setGlobalPause true t else t
  streams := if (base r.1).finished && !(base s).finished then h.streams.erase (base s).id else h.streams
  wire := r.2

/-- A call of a method that may throw on the object at `a`. -/
def run (h : Hub α) (a : Nat) (m : α → Wire → Bool → Except JsError (α × Wire)) : Except JsError (Hub α) :=
  match h.objs[a]? with
  | none => .ok h
  | some s => (m s h.wire (h.listed a)).map (h.put a s)

/-- A call of a method that does not throw. -/
def call (h : Hub α) (a : Nat) (m : α → Wire → Bool → α × Wire) : Hub α :=
  match h.objs[a]? with
  | none => h
  | some s => h.put a s (m s h.wire (h.listed a))

/-! ## Addresses -/

variable {env} {h : Hub α}

omit [StreamObj α] in
theorem listed_iff {a : Nat} : h.listed a = true ↔ ∃ id, h.streams.lookup id = some a := by
  simp [listed, Dict.mem_values]

theorem getElem?_pauseAll (b : Bool) (a : Nat) :
    (h.pauseAll b).objs[a]? = h.objs[a]?.map fun s => if h.listed a then setGlobalPause b s else s := by
  simp [pauseAll]

@[simp] theorem streams_pauseAll (b : Bool) : (h.pauseAll b).streams = h.streams := rfl
@[simp] theorem wire_pauseAll (b : Bool) : (h.pauseAll b).wire = h.wire := rfl
@[simp] theorem listed_pauseAll (b : Bool) (a : Nat) : (h.pauseAll b).listed a = h.listed a := rfl

@[simp] theorem wire_send (f : Frame) : (h.send env f).wire = h.wire.send env f := by
  unfold send
  dsimp only
  split <;> rfl

@[simp] theorem streams_send (f : Frame) : (h.send env f).streams = h.streams := by
  unfold send
  dsimp only
  split <;> rfl

@[simp] theorem listed_send (f : Frame) (a : Nat) : (h.send env f).listed a = h.listed a := by
  simp [listed]

omit [StreamObj α] in
theorem listed_insert {id a : Nat} (s : α) (hl : (h.insert id s).listed a = true) :
    a = h.objs.length ∨ h.listed a = true := by
  obtain ⟨k, hk⟩ := listed_iff.mp hl
  simp only [insert, Dict.lookup_insert_ite] at hk
  split at hk
  · exact .inl (Option.some.inj hk).symm
  · exact .inr (listed_iff.mpr ⟨k, hk⟩)

omit [StreamObj α] in
theorem listed_insert_self (id : Nat) (s : α) : (h.insert id s).listed h.objs.length = true :=
  listed_iff.mpr ⟨id, by simp [insert]⟩

omit [StreamObj α] in
theorem getElem?_insert_of_lt {id a : Nat} (s : α) (ha : a < h.objs.length) :
    (h.insert id s).objs[a]? = h.objs[a]? := by
  simp [insert, List.getElem?_append_left ha]

omit [StreamObj α] in
@[simp] theorem getElem?_insert_self (id : Nat) (s : α) : (h.insert id s).objs[h.objs.length]? = some s := by
  simp [insert]

theorem listed_put {a a' : Nat} {s : α} {r : α × Wire} (hl : (h.put a s r).listed a' = true) :
    h.listed a' = true := by
  obtain ⟨k, hk⟩ := listed_iff.mp hl
  simp only [put] at hk
  split at hk
  · rw [Dict.lookup_erase_ite] at hk
    split at hk
    · cases hk
    · exact listed_iff.mpr ⟨k, hk⟩
  · exact listed_iff.mpr ⟨k, hk⟩

theorem getElem?_put_self {a : Nat} {s t : α} (r : α × Wire) (hs : h.objs[a]? = some t) :
    (h.put a s r).objs[a]? = some r.1 := by
  have ha : a < h.objs.length := (List.getElem?_eq_some_iff.mp hs).1
  simp [put, ha]

theorem getElem?_put_ne {a a' : Nat} {s : α} (r : α × Wire) (hne : a' ≠ a) :
    (h.put a s r).objs[a']? = h.objs[a']?.map fun t =>
      if r.2.congested && !h.wire.congested && h.listed a' then setGlobalPause true t else t := by
  simp [put, List.getElem?_set_ne (Ne.symm hne), hne]

@[simp] theorem streams_clearCongestion : h.clearCongestion.streams = h.streams := by
  unfold clearCongestion
  dsimp only
  split <;> rfl

theorem wire_clearCongestion :
    h.clearCongestion.wire = { h.wire with congestionTimer := false, congested := false } := by
  unfold clearCongestion
  dsimp only
  split
  · rename_i hc
    simp only [Bool.not_eq_true'] at hc
    rw [← hc]
  · rfl

theorem getElem?_clearCongestion {a : Nat} (hl : h.listed a = false) :
    h.clearCongestion.objs[a]? = h.objs[a]? := by
  unfold clearCongestion
  dsimp only
  split
  · rfl
  · rw [getElem?_pauseAll]
    have hl' : ({ h with wire := { h.wire with congestionTimer := false, congested := false } } : Hub α).listed a
        = false := hl
    simp only [hl']
    simp

theorem wire_call_of {a : Nat} {m : α → Wire → Bool → α × Wire} {f : α → α}
    (hm : ∀ s l, m s h.wire l = (f s, h.wire)) : (h.call a m).wire = h.wire := by
  unfold call
  split
  · rfl
  · simp [put, hm]

/-- A method that leaves the WebSocket alone changes one object. -/
theorem getElem?_call_of {a : Nat} {m : α → Wire → Bool → α × Wire} {f : α → α}
    (hm : ∀ s l, m s h.wire l = (f s, h.wire)) (x : Nat) :
    (h.call a m).objs[x]? = if x = a then h.objs[x]?.map f else h.objs[x]? := by
  unfold call
  split
  · rename_i hn
    split
    · rename_i hx
      rw [hx, hn]
      rfl
    · rfl
  · rename_i s hs
    split
    · rename_i hx
      rw [hx, getElem?_put_self _ hs, hs, hm]
      rfl
    · rename_i hx
      rw [getElem?_put_ne _ hx, hm]
      simp

/-- The loop over the table at a teardown, for a method that leaves the WebSocket alone and changes
an object once. -/
theorem foldl_call {m : α → Wire → Bool → α × Wire} {f : α → α} {w : Wire} (hm : ∀ s l, m s w l = (f s, w))
    (hf : ∀ s, f (f s) = f s) (l : List Nat) :
    ∀ {h : Hub α}, h.wire = w →
      (l.foldl (fun h a => h.call a m) h).wire = w ∧
      ∀ x, (l.foldl (fun h a => h.call a m) h).objs[x]? = if x ∈ l then h.objs[x]?.map f else h.objs[x]? := by
  induction l with
  | nil => intro h hw; exact ⟨hw, fun x => by simp⟩
  | cons a l ih =>
    intro h hw
    have hm' : ∀ s l, m s h.wire l = (f s, h.wire) := fun s l => by rw [hw]; exact hm s l
    obtain ⟨h1, h2⟩ := ih ((wire_call_of (a := a) hm').trans hw)
    refine ⟨h1, fun x => (h2 x).trans ?_⟩
    rw [getElem?_call_of hm']
    by_cases hx : x = a <;> by_cases hl : x ∈ l <;> simp [hx, hl, Function.comp_def, hf]

/-! ## Properties of every object -/

/-- A property of a stream, given whether its owner is congested and whether the table holds the
stream, that congestion starting keeps, and leaving the table. -/
structure Law (P : Bool → Bool → α → Prop) : Prop where
  congest : ∀ s, P false true s → P true true (setGlobalPause true s)
  congestUnlisted : ∀ s, P false false s → P true false s
  unlist : ∀ c s, P c true s → P c false s

def All (P : Bool → Bool → α → Prop) (h : Hub α) : Prop :=
  ∀ a s, h.objs[a]? = some s → P h.wire.congested (h.listed a) s

/-- Of every object but the one at `x`. -/
def AllBut (x : Nat) (P : Bool → Bool → α → Prop) (h : Hub α) : Prop :=
  ∀ a s, a ≠ x → h.objs[a]? = some s → P h.wire.congested (h.listed a) s

variable {P : Bool → Bool → α → Prop}

theorem Law.of_listed_le (hP : Law P) {c l l' : Bool} {s : α} (hp : P c l s) (hl : l' = true → l = true) :
    P c l' s := by
  cases l <;> cases l' <;> simp_all
  exact hP.unlist c s hp

theorem All.send (hP : Law P) (hA : All P h) (f : Frame) : All P (h.send env f) := by
  intro a s hs
  rw [wire_send, listed_send]
  unfold Hub.send at hs
  dsimp only at hs
  split at hs
  · rename_i hc
    simp only [Bool.and_eq_true, Bool.not_eq_true'] at hc
    rw [hc.1]
    rw [getElem?_pauseAll] at hs
    obtain ⟨t, ht, rfl⟩ := Option.map_eq_some_iff.mp hs
    have hp := hA a t ht
    rw [hc.2] at hp
    show P true _ (if h.listed a then _ else _)
    cases hl : h.listed a with
    | true => rw [hl] at hp; exact hP.congest t hp
    | false => rw [hl] at hp; exact hP.congestUnlisted t hp
  · rename_i hc
    have hp := hA a s hs
    have hmono := Wire.send_congested_of env h.wire f
    have heq : (h.wire.send env f).congested = h.wire.congested := by
      cases h1 : h.wire.congested <;> simp_all
    rw [heq]
    exact hp

/-- Congestion is over; what has to be known of the streams then is up to the property. -/
theorem All.clearCongestion (hA : All P h)
    (hc : ∀ a s, h.objs[a]? = some s → h.wire.congested = true → P true (h.listed a) s →
      P false (h.listed a) (if h.listed a then setGlobalPause false s else s)) :
    All P h.clearCongestion := by
  intro a s hs
  unfold Hub.clearCongestion at hs ⊢
  dsimp only at hs ⊢
  split at hs
  · rename_i h1
    rw [if_pos h1]
    exact hA a s hs
  · rename_i h1
    have h2 : h.wire.congested = true := by simpa using h1
    rw [if_neg h1]
    rw [getElem?_pauseAll] at hs
    obtain ⟨t, ht, rfl⟩ := Option.map_eq_some_iff.mp hs
    have hp := hA a t ht
    rw [h2] at hp
    exact hc a t ht h2 hp

theorem All.insert_but (hP : Law P) (hA : All P h) (id : Nat) (s : α) :
    AllBut h.objs.length P (h.insert id s) := by
  intro a t hne ht
  have hlt : a < (h.insert id s).objs.length := (List.getElem?_eq_some_iff.mp ht).1
  have ha : a < h.objs.length := by simp [Hub.insert] at hlt; omega
  rw [getElem?_insert_of_lt s ha] at ht
  refine hP.of_listed_le (hA a t ht) fun hl => ?_
  rcases listed_insert s hl with h1 | h1
  · exact absurd h1 hne
  · exact h1

theorem All.insert (hP : Law P) (hA : All P h) (id : Nat) {s : α} (hs : P h.wire.congested true s) :
    All P (h.insert id s) := by
  intro a t ht
  by_cases ha : a = h.objs.length
  · subst ha
    rw [getElem?_insert_self] at ht
    cases ht
    rw [listed_insert_self]
    exact hs
  · exact hA.insert_but hP id s a t ha ht

theorem AllBut.put (hP : Law P) {a : Nat} (hA : AllBut a P h) {s : α} {r : α × Wire} (hs : h.objs[a]? = some s)
    (hmono : h.wire.congested = true → r.2.congested = true) (hr : P r.2.congested (h.listed a) r.1) :
    All P (h.put a s r) := by
  intro a' t ht
  refine hP.of_listed_le (l := h.listed a') ?_ listed_put
  show P r.2.congested _ t
  by_cases hne : a' = a
  · subst hne
    rw [getElem?_put_self r hs] at ht
    cases ht
    exact hr
  · rw [getElem?_put_ne r hne] at ht
    obtain ⟨t', ht', rfl⟩ := Option.map_eq_some_iff.mp ht
    have hp := hA a' t' hne ht'
    cases h1 : h.wire.congested <;> cases h2 : r.2.congested <;> cases h3 : h.listed a' <;> simp_all
    · exact hP.congestUnlisted t' hp
    · exact hP.congest t' hp

theorem AllBut.call (hP : Law P) {a : Nat} (hA : AllBut a P h) {m : α → Wire → Bool → α × Wire}
    (hm : ∀ s, h.objs[a]? = some s →
      (h.wire.congested = true → (m s h.wire (h.listed a)).2.congested = true) ∧
        P (m s h.wire (h.listed a)).2.congested (h.listed a) (m s h.wire (h.listed a)).1) :
    All P (h.call a m) := by
  unfold Hub.call
  split
  · rename_i hn
    intro a' s hs
    refine hA a' s ?_ hs
    rintro rfl
    rw [hn] at hs
    cases hs
  · rename_i s hs
    exact hA.put hP hs (hm s hs).1 (hm s hs).2

theorem All.call (hP : Law P) (hA : All P h) {a : Nat} {m : α → Wire → Bool → α × Wire}
    (hm : ∀ s, h.objs[a]? = some s → P h.wire.congested (h.listed a) s →
      (h.wire.congested = true → (m s h.wire (h.listed a)).2.congested = true) ∧
        P (m s h.wire (h.listed a)).2.congested (h.listed a) (m s h.wire (h.listed a)).1) :
    All P (h.call a m) :=
  AllBut.call hP (fun a' s _ hs => hA a' s hs) fun s hs => hm s hs (hA a s hs)

theorem All.run (hP : Law P) (hA : All P h) {a : Nat}
    {m : α → Wire → Bool → Except JsError (α × Wire)} {h' : Hub α} (hr : h.run a m = .ok h')
    (hm : ∀ s r, h.objs[a]? = some s → m s h.wire (h.listed a) = .ok r →
      P h.wire.congested (h.listed a) s →
        (h.wire.congested = true → r.2.congested = true) ∧ P r.2.congested (h.listed a) r.1) :
    All P h' := by
  unfold Hub.run at hr
  split at hr
  · cases hr
    exact hA
  · rename_i s hs
    obtain ⟨r, hr1, rfl⟩ := map_ok.mp hr
    obtain ⟨hmono, hp⟩ := hm s r hs hr1 (hA a s hs)
    exact AllBut.put hP (fun a' s _ hs => hA a' s hs) hs hmono hp

/-! ## Properties of a stream alone -/

/-- `Q` holds of every object, whatever its owner does. -/
def Each (Q : α → Prop) (h : Hub α) : Prop := ∀ (a : Nat) (s : α), h.objs[a]? = some s → Q s

section
variable {Q : α → Prop}

theorem Each.pauseAll (hQ : ∀ b s, Q s → Q (setGlobalPause b s)) (hE : Each Q h) (b : Bool) : Each Q (h.pauseAll b) := by
  intro a s hs
  rw [getElem?_pauseAll] at hs
  obtain ⟨t, ht, rfl⟩ := Option.map_eq_some_iff.mp hs
  split
  · exact hQ b t (hE a t ht)
  · exact hE a t ht

theorem Each.send (hQ : ∀ b s, Q s → Q (setGlobalPause b s)) (hE : Each Q h) (f : Frame) : Each Q (h.send env f) := by
  unfold Hub.send
  dsimp only
  split
  · exact Each.pauseAll hQ hE true
  · exact hE

theorem Each.clearCongestion (hQ : ∀ b s, Q s → Q (setGlobalPause b s)) (hE : Each Q h) : Each Q h.clearCongestion := by
  unfold Hub.clearCongestion
  dsimp only
  split
  · exact hE
  · exact Each.pauseAll hQ hE false

theorem Each.poll (hQ : ∀ b s, Q s → Q (setGlobalPause b s)) (hE : Each Q h) (buffered : Nat) :
    Each Q (h.poll env buffered) := by
  unfold Hub.poll
  split
  · exact hE.clearCongestion hQ
  · exact hE

omit [StreamObj α] in
theorem Each.insert (hE : Each Q h) (id : Nat) {s : α} (hs : Q s) : Each Q (h.insert id s) := by
  intro a t ht
  rcases List.mem_append.mp (List.mem_of_getElem? ht) with hm | hm
  · obtain ⟨a', ha'⟩ := List.mem_iff_getElem?.mp hm
    exact hE a' t ha'
  · cases List.mem_singleton.mp hm
    exact hs

theorem Each.put (hQ : ∀ b s, Q s → Q (setGlobalPause b s)) (hE : Each Q h) {a : Nat} {s t : α} {r : α × Wire}
    (hs : h.objs[a]? = some t) (hr : Q r.1) : Each Q (h.put a s r) := by
  intro a' u hu
  by_cases hne : a' = a
  · subst hne
    rw [getElem?_put_self r hs] at hu
    cases hu
    exact hr
  · rw [getElem?_put_ne r hne] at hu
    obtain ⟨v, hv, rfl⟩ := Option.map_eq_some_iff.mp hu
    split
    · exact hQ true v (hE a' v hv)
    · exact hE a' v hv

theorem Each.call (hQ : ∀ b s, Q s → Q (setGlobalPause b s)) (hE : Each Q h) {a : Nat}
    {m : α → Wire → Bool → α × Wire}
    (hm : ∀ s, h.objs[a]? = some s → Q s → Q (m s h.wire (h.listed a)).1) : Each Q (h.call a m) := by
  unfold Hub.call
  split
  · exact hE
  · rename_i s hs
    exact hE.put hQ hs (hm s hs (hE a s hs))

theorem Each.run (hQ : ∀ b s, Q s → Q (setGlobalPause b s)) (hE : Each Q h) {a : Nat}
    {m : α → Wire → Bool → Except JsError (α × Wire)} {h' : Hub α} (hr : h.run a m = .ok h')
    (hm : ∀ s r, h.objs[a]? = some s → m s h.wire (h.listed a) = .ok r → Q s → Q r.1) : Each Q h' := by
  unfold Hub.run at hr
  split at hr
  · cases hr
    exact hE
  · rename_i s hs
    obtain ⟨r, hr1, rfl⟩ := map_ok.mp hr
    exact hE.put hQ hs (hm s r hs hr1 (hE a s hs))

theorem Each.foldl_call (hQ : ∀ b s, Q s → Q (setGlobalPause b s)) {m : α → Wire → Bool → α × Wire}
    (hm : ∀ s w l, Q s → Q (m s w l).1) (l : List Nat) :
    ∀ {h : Hub α}, Each Q h → Each Q (l.foldl (fun h a => h.call a m) h) := by
  induction l with
  | nil => exact id
  | cons a l ih => exact fun hE => ih (hE.call hQ fun s _ hs => hm s _ _ hs)

end

end Hub

end UpTunnel
