import Mathlib.Data.List.Infix

/-!
# UpTunnel.Lib.Pipe

One direction of a byte stream, cut into chunks and carried by a FIFO channel to a receiver that
may hold chunks back before it takes them. The end of the stream is a marker in the channel.

* `Pipe.Ok`: what was taken, is held and is in flight, in this order, is a prefix of what was
  pushed; it is all of it as long as nothing was lost, and once the end marker was sent.
* One lemma `Ok.push`, `Ok.hold`, … for each operation says that it keeps `Ok`.
* `Pipe.Frozen`: what is left of `Ok` once the receiver is gone.
-/

universe u

inductive Item (α : Type u) where
  | chunk (xs : List α)
  | eof
  deriving DecidableEq

namespace Item

variable {α : Type u}

/-- The elements in flight. -/
def elems : List (Item α) → List α
  | [] => []
  | chunk xs :: l => xs ++ elems l
  | eof :: l => elems l

@[simp] theorem elems_nil : elems ([] : List (Item α)) = [] := rfl
@[simp] theorem elems_chunk (xs : List α) (l : List (Item α)) : elems (chunk xs :: l) = xs ++ elems l := rfl
@[simp] theorem elems_eof (l : List (Item α)) : elems (eof :: l) = elems l := rfl

@[simp] theorem elems_append (l l' : List (Item α)) : elems (l ++ l') = elems l ++ elems l' := by
  induction l with
  | nil => rfl
  | cons i l ih => cases i <;> simp [ih]

/-- Nothing follows an end marker. -/
def EofLast : List (Item α) → Prop
  | [] => True
  | chunk _ :: l => EofLast l
  | eof :: l => l = []

theorem EofLast.append {l : List (Item α)} (h : EofLast l) (hn : eof ∉ l) (i : Item α) :
    EofLast (l ++ [i]) := by
  induction l with
  | nil => cases i <;> simp [EofLast]
  | cons j l ih =>
    cases j with
    | chunk xs => exact ih h fun hm => hn (List.mem_cons_of_mem _ hm)
    | eof => exact absurd List.mem_cons_self hn

end Item

structure Pipe (α : Type u) where
  pushed : List α
  pushedEof : Bool
  flight : List (Item α)
  held : List α
  heldEof : Bool
  taken : List α
  takenEof : Bool

namespace Pipe

variable {α : Type u} {p : Pipe α}

/-- What has left the sender for the receiver and was not lost. -/
def passed (p : Pipe α) : List α := p.taken ++ p.held ++ Item.elems p.flight

/-- The end marker has left the sender and was not lost. -/
def EofSeen (p : Pipe α) : Prop := Item.eof ∈ p.flight ∨ p.heldEof = true ∨ p.takenEof = true

/-- `whole` says that nothing was lost so far. -/
structure Ok (whole : Bool) (p : Pipe α) : Prop where
  eofLast : Item.EofLast p.flight
  after : p.heldEof = true ∨ p.takenEof = true → p.flight = []
  heldNil : p.takenEof = true → p.held = []
  eofFrom : p.EofSeen → p.pushedEof = true
  pre : p.passed <+: p.pushed
  all : p.EofSeen → p.passed = p.pushed
  whole : whole = true → p.passed = p.pushed

/-- The receiver is gone: what it took stays a prefix, and is everything if it took the end. -/
structure Frozen (p : Pipe α) : Prop where
  pre : p.taken <+: p.pushed
  all : p.takenEof = true → p.pushedEof = true ∧ p.taken = p.pushed

variable {whole : Bool}

theorem Ok.frozen (h : p.Ok whole) : p.Frozen where
  pre := by
    refine List.IsPrefix.trans ?_ h.pre
    rw [passed, List.append_assoc]
    exact List.prefix_append _ _
  all ht := by
    have hp := h.all (.inr (.inr ht))
    rw [passed, h.heldNil ht, h.after (.inr ht)] at hp
    exact ⟨h.eofFrom (.inr (.inr ht)), by simpa using hp⟩

/-- From now on, things may be lost. -/
theorem Ok.weaken (h : p.Ok whole) : p.Ok false :=
  ⟨h.eofLast, h.after, h.heldNil, h.eofFrom, h.pre, h.all, nofun⟩

theorem Ok.push (h : p.Ok true) (he : p.pushedEof = false) (xs : List α) :
    ({ p with pushed := p.pushed ++ xs, flight := p.flight ++ [.chunk xs] } : Pipe α).Ok true := by
  have hseen : ¬ p.EofSeen := fun hs => by simp [h.eofFrom hs] at he
  simp only [EofSeen, not_or, Bool.not_eq_true] at hseen
  have hp : p.taken ++ p.held ++ Item.elems p.flight = p.pushed := h.whole rfl
  refine ⟨h.eofLast.append hseen.1 _, ?_, ?_, ?_, ?_, ?_, ?_⟩
  · simp [hseen]
  · simp [hseen]
  · simp [EofSeen, hseen]
  · simp [passed, ← hp]
  · simp [EofSeen, hseen]
  · simp [passed, ← hp]

theorem Ok.pushEof (h : p.Ok true) (he : p.pushedEof = false) :
    ({ p with pushedEof := true, flight := p.flight ++ [.eof] } : Pipe α).Ok true := by
  have hseen : ¬ p.EofSeen := fun hs => by simp [h.eofFrom hs] at he
  simp only [EofSeen, not_or, Bool.not_eq_true] at hseen
  have hp : p.taken ++ p.held ++ Item.elems p.flight = p.pushed := h.whole rfl
  refine ⟨h.eofLast.append hseen.1 _, ?_, ?_, ?_, ?_, ?_, ?_⟩
  · simp [hseen]
  · simp [hseen]
  · simp
  · simp [passed, ← hp]
  · simp [passed, ← hp]
  · simp [passed, ← hp]

/-- A chunk pushed into a channel that loses it. -/
theorem Ok.lose (h : p.Ok whole) (he : p.pushedEof = false) (xs : List α) :
    ({ p with pushed := p.pushed ++ xs } : Pipe α).Ok false := by
  have hseen : ¬ p.EofSeen := fun hs => by simp [h.eofFrom hs] at he
  exact ⟨h.eofLast, h.after, h.heldNil, fun hs => absurd hs hseen,
    h.pre.trans (List.prefix_append _ _), fun hs => absurd hs hseen, nofun⟩

theorem Ok.loseEof (h : p.Ok whole) : ({ p with pushedEof := true } : Pipe α).Ok false :=
  ⟨h.eofLast, h.after, h.heldNil, fun _ => rfl, h.pre, h.all, nofun⟩

/-- A chunk arrives: it cannot be behind the end marker. -/
theorem Ok.chunk_open {xs : List α} {rest : List (Item α)} (h : p.Ok whole)
    (hf : p.flight = .chunk xs :: rest) : p.heldEof = false ∧ p.takenEof = false := by
  have := h.after
  rw [hf] at this
  simp only [reduceCtorEq, imp_false, not_or, Bool.not_eq_true] at this
  exact this

theorem Ok.eof_open {rest : List (Item α)} (h : p.Ok whole) (hf : p.flight = .eof :: rest) :
    p.heldEof = false ∧ p.takenEof = false ∧ rest = [] := by
  have := h.after
  rw [hf] at this
  simp only [reduceCtorEq, imp_false, not_or, Bool.not_eq_true] at this
  have hl := h.eofLast
  rw [hf] at hl
  exact ⟨this.1, this.2, hl⟩

/-- An arriving chunk goes to the back of what is held. -/
theorem Ok.hold {xs : List α} {rest : List (Item α)} (h : p.Ok whole) (hf : p.flight = .chunk xs :: rest) :
    ({ p with flight := rest, held := p.held ++ xs } : Pipe α).Ok whole := by
  obtain ⟨hh, ht⟩ := h.chunk_open hf
  have hp : ({ p with flight := rest, held := p.held ++ xs } : Pipe α).passed = p.passed := by
    simp [passed, hf]
  have hs : ({ p with flight := rest, held := p.held ++ xs } : Pipe α).EofSeen → p.EofSeen := by
    simp [EofSeen, hf]
  have hl := h.eofLast
  rw [hf] at hl
  exact ⟨hl, by simp [hh, ht], by simp [ht], fun e => h.eofFrom (hs e), hp ▸ h.pre,
    fun e => hp.trans (h.all (hs e)), fun e => hp.trans (h.whole e)⟩

theorem Ok.holdEof {rest : List (Item α)} (h : p.Ok whole) (hf : p.flight = .eof :: rest) :
    ({ p with flight := rest, heldEof := true } : Pipe α).Ok whole := by
  obtain ⟨hh, ht, hr⟩ := h.eof_open hf
  have hseen : p.EofSeen := .inl (by simp [hf])
  have hp : ({ p with flight := rest, heldEof := true } : Pipe α).passed = p.passed := by
    simp [passed, hf]
  exact ⟨by simp [hr, Item.EofLast], fun _ => hr, by simp [ht], fun _ => h.eofFrom hseen, hp ▸ h.pre,
    fun _ => hp.trans (h.all hseen), fun e => hp.trans (h.whole e)⟩

/-- The receiver takes the front of what it holds. -/
theorem Ok.take {xs ys : List α} (h : p.Ok whole) (hh : p.held = xs ++ ys) (ht : p.takenEof = false) :
    ({ p with held := ys, taken := p.taken ++ xs } : Pipe α).Ok whole := by
  have hp : ({ p with held := ys, taken := p.taken ++ xs } : Pipe α).passed = p.passed := by
    simp [passed, hh]
  exact ⟨h.eofLast, h.after, by simp [ht], h.eofFrom, hp ▸ h.pre, fun e => hp.trans (h.all e),
    fun e => hp.trans (h.whole e)⟩

/-- The receiver takes the end it held, after everything else. -/
theorem Ok.takeEof (h : p.Ok whole) (hh : p.held = []) (he : p.heldEof = true) :
    ({ p with takenEof := true } : Pipe α).Ok whole := by
  have hseen : p.EofSeen := .inr (.inl he)
  exact ⟨h.eofLast, fun _ => h.after (.inl he), fun _ => hh, fun _ => h.eofFrom hseen, h.pre,
    fun _ => h.all hseen, h.whole⟩

/-- An end mark that is held is no longer told apart from one that was taken. -/
theorem Ok.dropHeldEof (h : p.Ok whole) (ht : p.takenEof = true) :
    ({ p with heldEof := false } : Pipe α).Ok whole := by
  have hseen : p.EofSeen := .inr (.inr ht)
  exact ⟨h.eofLast, fun _ => h.after (.inr ht), fun _ => h.heldNil ht, fun _ => h.eofFrom hseen, h.pre,
    fun _ => h.all hseen, h.whole⟩

theorem Frozen.push (h : p.Frozen) (he : p.pushedEof = false) (xs : List α) :
    ({ p with pushed := p.pushed ++ xs } : Pipe α).Frozen :=
  ⟨h.pre.trans (List.prefix_append _ _), fun ht => by simp [(h.all ht).1] at he⟩

theorem Frozen.pushEof (h : p.Frozen) : ({ p with pushedEof := true } : Pipe α).Frozen :=
  ⟨h.pre, fun ht => ⟨rfl, (h.all ht).2⟩⟩

end Pipe
