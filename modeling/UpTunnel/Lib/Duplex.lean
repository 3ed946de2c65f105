import UpTunnel.Lib.Pipe
import Mathlib.Algebra.BigOperators.Group.List.Basic
import Mathlib.Data.Rat.Floor

/-!
# UpTunnel.Lib.Duplex

A byte stream in both directions between two ends, over two FIFO channels, with credit: an end may
be behind its peer's acknowledgements, and what it takes it acknowledges sooner or later. An end may
die at any moment; then it drops what arrives. A channel may close at its sender's side, and from
then on loses what is sent.

* `End.Step`: what an end does, with the message it consumes and the messages it sends; `End.Run` is
  a sequence of these.
* `Dir`: the invariant of one direction: `Pipe.Ok`, and the conservation of credit.
* `Duplex.Inv.run`: what an end does keeps `Dir` in both directions.
-/

universe u

inductive Msg (α : Type u) where
  | data (xs : List α)
  | eof
  | ack (n : Nat)
  | reset

namespace Msg

variable {α : Type u}

/-- The chunks and end markers among the messages. -/
def items : List (Msg α) → List (Item α)
  | [] => []
  | data xs :: ms => .chunk xs :: items ms
  | eof :: ms => .eof :: items ms
  | _ :: ms => items ms

/-- The sum of the acknowledgements. -/
def acks : List (Msg α) → Nat
  | [] => 0
  | ack n :: ms => n + acks ms
  | _ :: ms => acks ms

@[simp] theorem items_nil : items ([] : List (Msg α)) = [] := rfl
@[simp] theorem items_data (xs : List α) (ms : List (Msg α)) : items (data xs :: ms) = .chunk xs :: items ms := rfl
@[simp] theorem items_eof (ms : List (Msg α)) : items (eof :: ms) = .eof :: items ms := rfl
@[simp] theorem items_ack (n : Nat) (ms : List (Msg α)) : items (ack n :: ms) = items ms := rfl
@[simp] theorem items_reset (ms : List (Msg α)) : items (reset :: ms) = items ms := rfl
@[simp] theorem acks_nil : acks ([] : List (Msg α)) = 0 := rfl
@[simp] theorem acks_data (xs : List α) (ms : List (Msg α)) : acks (data xs :: ms) = acks ms := rfl
@[simp] theorem acks_eof (ms : List (Msg α)) : acks (eof :: ms) = acks ms := rfl
@[simp] theorem acks_ack (n : Nat) (ms : List (Msg α)) : acks (ack n :: ms) = n + acks ms := rfl
@[simp] theorem acks_reset (ms : List (Msg α)) : acks (reset :: ms) = acks ms := rfl

@[simp] theorem items_append (ms ms' : List (Msg α)) : items (ms ++ ms') = items ms ++ items ms' := by
  induction ms with
  | nil => rfl
  | cons m ms ih => cases m <;> simp [ih]

@[simp] theorem acks_append (ms ms' : List (Msg α)) : acks (ms ++ ms') = acks ms + acks ms' := by
  induction ms with
  | nil => simp
  | cons m ms ih => cases m <;> simp [ih, Nat.add_assoc]

@[simp] theorem items_map_ack (ns : List Nat) : items (ns.map (ack : Nat → Msg α)) = [] := by
  induction ns with
  | nil => rfl
  | cons n ns ih => simpa using ih

@[simp] theorem acks_map_ack (ns : List Nat) : acks (ns.map (ack : Nat → Msg α)) = ns.sum := by
  induction ns with
  | nil => rfl
  | cons n ns ih => simp [ih]

theorem items_of_resets {ms : List (Msg α)} (h : ∀ m ∈ ms, m = reset) : items ms = [] := by
  induction ms with
  | nil => rfl
  | cons m ms ih =>
    rw [h m List.mem_cons_self]
    exact ih fun m hm => h m (List.mem_cons_of_mem _ hm)

end Msg

/-- One end of the stream, as a sender and as a receiver. -/
@[ext]
structure End (α : Type u) where
  credit : Int
  pushed : List α
  pushedEof : Bool
  held : List α
  heldEof : Bool
  taken : List α
  takenEof : Bool
  unacked : Nat
  finished : Bool

namespace End

variable {α : Type u}

def fresh (window : Int) : End α where
  credit := window
  pushed := []
  pushedEof := false
  held := []
  heldEof := false
  taken := []
  takenEof := false
  unacked := 0
  finished := false

/-- What an end that is not finished does: the message it consumes, if any, what becomes of it, and
the messages it sends. -/
inductive Step (e : End α) : Option (Msg α) → End α → List (Msg α) → Prop where
  | push (xs : List α) : e.pushedEof = false →
      Step e none { e with credit := e.credit - xs.length, pushed := e.pushed ++ xs } [.data xs]
  | pushEof : e.pushedEof = false →
      Step e none { e with pushedEof := true, finished := e.takenEof } [.eof]
  | hold (xs : List α) : e.takenEof = false →
      Step e (some (.data xs)) { e with held := e.held ++ xs } []
  | holdEof : e.takenEof = false →
      Step e (some .eof) { e with heldEof := true } []
  | take (xs ys : List α) (ns : List Nat) (r : Nat) : e.held = xs ++ ys → e.takenEof = false →
      r + ns.sum = e.unacked + xs.length →
      Step e none { e with held := ys, taken := e.taken ++ xs, unacked := r } (ns.map .ack)
  | takeEof (ns : List Nat) : e.held = [] → e.heldEof = true → ns.sum = e.unacked →
      Step e none { e with heldEof := false, takenEof := true, unacked := 0, finished := e.pushedEof }
        (ns.map .ack)
  | flush (ns : List Nat) (r : Nat) : r + ns.sum = e.unacked →
      Step e none { e with unacked := r } (ns.map .ack)
  | grant (n : Nat) : Step e (some (.ack n)) { e with credit := e.credit + n } []
  | die (m : Option (Msg α)) (ms : List (Msg α)) : (∀ m ∈ ms, m = .reset) →
      Step e m { e with finished := true } ms
  /-- Data behind an end that was taken is ignored. -/
  | late (m : Msg α) : e.takenEof = true → Msg.items [m] ≠ [] → Step e (some m) e []

/-- Steps of one end: it consumes the messages `ins` and sends `outs`. A finished end drops what
arrives, and may answer with resets. -/
inductive Run (e : End α) : List (Msg α) → End α → List (Msg α) → Prop where
  | refl : Run e [] e []
  | step {ins outs ms : List (Msg α)} {e' e'' : End α} {m : Option (Msg α)} : Run e ins e' outs →
      e'.finished = false → Step e' m e'' ms → Run e (ins ++ m.toList) e'' (outs ++ ms)
  | drop {ins outs ms : List (Msg α)} {e' : End α} {m : Option (Msg α)} : Run e ins e' outs →
      e'.finished = true → (∀ m ∈ ms, m = .reset) → Run e (ins ++ m.toList) e' (outs ++ ms)

variable {e e' : End α} {m : Option (Msg α)} {ms : List (Msg α)}

theorem Step.run (hs : Step e m e' ms) (hf : e.finished = false) : Run e m.toList e' ms :=
  Run.step .refl hf hs

/-- A finished end drops any number of messages. -/
theorem Run.discard (hf : e.finished = true) (hms : ∀ m ∈ ms, m = .reset) (ins : List (Msg α)) :
    Run e ins e ms := by
  induction ins using List.reverseRecOn with
  | nil => exact Run.drop (m := none) .refl hf hms
  | append_singleton ins m ih => simpa using Run.drop (m := some m) ih hf (show ∀ m ∈ ([] : List (Msg α)), m = .reset by simp)

/-- An end that is finished stays as it is. -/
theorem Run.eq_of_finished {ins outs : List (Msg α)} (hr : Run e ins e' outs) (hf : e.finished = true) :
    e' = e := by
  induction hr with
  | refl => rfl
  | step _ hf' _ ih => simp [ih, hf] at hf'
  | drop _ _ _ ih => exact ih

end End

/-! ## One direction -/

/-- The direction from `x` to `y` as a pipe; `xy` are the messages in flight. -/
def End.pipe {α : Type u} (x y : End α) (xy : List (Msg α)) : Pipe α where
  pushed := x.pushed
  pushedEof := x.pushedEof
  flight := Msg.items xy
  held := y.held
  heldEof := y.heldEof
  taken := y.taken
  takenEof := y.takenEof

/-- The invariant of the direction from `x` to `y`; `xOpen` and `yOpen` say that nothing the end
sends is lost. -/
structure Dir {α : Type u} (window : Int) (x y : End α) (xy yx : List (Msg α)) (xOpen yOpen : Bool) : Prop where
  ok : y.finished = false → (x.pipe y xy).Ok xOpen
  frozen : (x.pipe y xy).Frozen
  credit : x.finished = false → y.finished = false → xOpen = true → yOpen = true →
    x.credit + (Item.elems (Msg.items xy)).length + y.held.length + y.unacked + Msg.acks yx = window

namespace Dir

variable {α : Type u} {window : Int} {x y x' y' : End α} {xy yx ms : List (Msg α)} {xOpen yOpen : Bool}

theorem of_ok (h : (x.pipe y xy).Ok xOpen) (hc : x.finished = false → y.finished = false → xOpen = true →
    yOpen = true →
    x.credit + (Item.elems (Msg.items xy)).length + y.held.length + y.unacked + Msg.acks yx = window) :
    Dir window x y xy yx xOpen yOpen :=
  ⟨fun _ => h, h.frozen, hc⟩

/-- What does not touch the direction. -/
theorem frame (h : Dir window x y xy yx xOpen yOpen) {xy' yx' : List (Msg α)}
    (hp : x'.pushed = x.pushed) (he : x'.pushedEof = x.pushedEof) (hi : Msg.items xy' = Msg.items xy)
    (ht : y'.held = y.held ∧ y'.heldEof = y.heldEof ∧ y'.taken = y.taken ∧ y'.takenEof = y.takenEof)
    (hy : y'.finished = false → y.finished = false)
    (hc : x'.finished = false → y'.finished = false → xOpen = true → yOpen = true →
      x.finished = false ∧ x'.credit + y'.unacked + Msg.acks yx' = x.credit + y.unacked + Msg.acks yx) :
    Dir window x' y' xy' yx' xOpen yOpen := by
  obtain ⟨h1, h2, h3, h4⟩ := ht
  have hpipe : x'.pipe y' xy' = x.pipe y xy := by
    simp [End.pipe, hp, he, hi, h1, h2, h3, h4]
  refine ⟨fun hf => hpipe ▸ h.ok (hy hf), hpipe ▸ h.frozen, fun hx hf hxo hyo => ?_⟩
  obtain ⟨hx', hsum⟩ := hc hx hf hxo hyo
  have := h.credit hx' (hy hf) hxo hyo
  rw [hi, h1]
  omega

/-- The sender acts. -/
theorem sender (h : Dir window x y xy yx xOpen yOpen) (hx : x.finished = false) {m : Option (Msg α)}
    {rest : List (Msg α)} (hyx : yx = m.toList ++ rest) (hs : x.Step m x' ms) :
    Dir window x' y (xy ++ if xOpen then ms else []) rest xOpen yOpen := by
  have hsame : ∀ ms' : List (Msg α), Msg.items ms' = [] → Msg.items (xy ++ if xOpen then ms' else []) = Msg.items xy := by
    intro ms' hms
    cases xOpen <;> simp [hms]
  cases hs with
  | push xs he =>
    simp only [Option.toList_none, List.nil_append] at hyx
    subst hyx
    have hfr := h.frozen.push he xs
    cases xOpen with
    | true =>
      refine ⟨fun hf => ?_, ⟨hfr.pre, hfr.all⟩, fun hx' hf hxo hyo => ?_⟩
      · have := (h.ok hf).push he xs
        simpa [End.pipe] using this
      · have := h.credit hx hf hxo hyo
        simp only [if_true, Msg.items_append, Msg.items_data, Msg.items_nil, Item.elems_append, Item.elems_chunk,
          Item.elems_nil, List.append_nil, List.length_append] at this ⊢
        omega
    | false =>
      refine ⟨fun hf => ?_, ⟨hfr.pre, hfr.all⟩, fun _ _ hxo => by simp at hxo⟩
      have := (h.ok hf).lose he xs
      simpa [End.pipe] using this
  | pushEof he =>
    simp only [Option.toList_none, List.nil_append] at hyx
    subst hyx
    have hfr := h.frozen.pushEof
    cases xOpen with
    | true =>
      refine ⟨fun hf => ?_, ⟨hfr.pre, hfr.all⟩, fun hx' hf hxo hyo => ?_⟩
      · have := (h.ok hf).pushEof he
        simpa [End.pipe] using this
      · have := h.credit hx hf hxo hyo
        simpa using this
    | false =>
      refine ⟨fun hf => ?_, ⟨hfr.pre, hfr.all⟩, fun _ _ hxo => by simp at hxo⟩
      have := (h.ok hf).loseEof
      simpa [End.pipe] using this
  | hold xs _ =>
    subst hyx
    exact h.frame rfl rfl (hsame _ rfl) ⟨rfl, rfl, rfl, rfl⟩ id fun _ _ _ _ => ⟨hx, by simp⟩
  | holdEof _ =>
    subst hyx
    exact h.frame rfl rfl (hsame _ rfl) ⟨rfl, rfl, rfl, rfl⟩ id fun _ _ _ _ => ⟨hx, by simp⟩
  | take xs ys ns r _ _ _ =>
    subst hyx
    exact h.frame rfl rfl (hsame _ (by simp)) ⟨rfl, rfl, rfl, rfl⟩ id fun _ _ _ _ => ⟨hx, by simp⟩
  | takeEof ns _ _ _ =>
    subst hyx
    exact h.frame rfl rfl (hsame _ (by simp)) ⟨rfl, rfl, rfl, rfl⟩ id fun _ _ _ _ => ⟨hx, by simp⟩
  | flush ns r _ =>
    subst hyx
    exact h.frame rfl rfl (hsame _ (by simp)) ⟨rfl, rfl, rfl, rfl⟩ id fun _ _ _ _ => ⟨hx, by simp⟩
  | grant n =>
    subst hyx
    refine h.frame rfl rfl (hsame _ rfl) ⟨rfl, rfl, rfl, rfl⟩ id fun _ _ _ _ => ⟨hx, ?_⟩
    simp only [Option.toList_some, List.singleton_append, Msg.acks_ack]
    omega
  | die m ms hms =>
    exact h.frame rfl rfl (hsame _ (Msg.items_of_resets hms)) ⟨rfl, rfl, rfl, rfl⟩ id fun hf => by simp at hf
  | late m hl hm =>
    subst hyx
    refine h.frame rfl rfl (hsame _ rfl) ⟨rfl, rfl, rfl, rfl⟩ id fun _ _ _ _ => ⟨hx, ?_⟩
    cases m <;> simp_all

/-- The receiver acts. -/
theorem receiver (h : Dir window x y xy yx xOpen yOpen) (hy : y.finished = false) {m : Option (Msg α)}
    {rest : List (Msg α)} (hxy : xy = m.toList ++ rest) (hs : y.Step m y' ms) :
    Dir window x y' rest (yx ++ if yOpen then ms else []) xOpen yOpen := by
  have hok := h.ok hy
  cases hs with
  | push xs he =>
    subst hxy
    refine h.frame rfl rfl rfl ⟨rfl, rfl, rfl, rfl⟩ (fun _ => hy) fun hx _ _ hyo => ⟨hx, ?_⟩
    simp [hyo]
  | pushEof he =>
    subst hxy
    refine h.frame rfl rfl rfl ⟨rfl, rfl, rfl, rfl⟩ (fun _ => hy) fun hx _ _ hyo => ⟨hx, ?_⟩
    simp [hyo]
  | hold xs ht =>
    subst hxy
    refine of_ok ((hok.hold rfl : _)) fun hx hf hxo hyo => ?_
    have := h.credit hx hy hxo hyo
    simp only [Option.toList_some, List.singleton_append, Msg.items_data, Item.elems_chunk, List.length_append,
      ite_self, List.append_nil] at this ⊢
    omega
  | holdEof ht =>
    subst hxy
    refine of_ok ((hok.holdEof rfl : _)) fun hx hf hxo hyo => ?_
    simpa using h.credit hx hy hxo hyo
  | take xs ys ns r hh ht hr =>
    subst hxy
    refine of_ok ((hok.take hh ht : _)) fun hx hf hxo hyo => ?_
    have := h.credit hx hy hxo hyo
    simp only [hyo, if_true, Msg.acks_append, Msg.acks_map_ack, hh, List.length_append] at this ⊢
    omega
  | takeEof ns hh he hr =>
    subst hxy
    have hok' := (hok.takeEof hh he).dropHeldEof rfl
    refine of_ok hok' fun hx hf hxo hyo => ?_
    have := h.credit hx hy hxo hyo
    simp only [hyo, if_true, Msg.acks_append, Msg.acks_map_ack] at this ⊢
    omega
  | flush ns r hr =>
    subst hxy
    refine h.frame rfl rfl rfl ⟨rfl, rfl, rfl, rfl⟩ (fun _ => hy) fun hx _ _ hyo => ⟨hx, ?_⟩
    simp only [hyo, if_true, Msg.acks_append, Msg.acks_map_ack]
    omega
  | grant n =>
    subst hxy
    exact h.frame rfl rfl (by simp) ⟨rfl, rfl, rfl, rfl⟩ (fun _ => hy) fun hx _ _ hyo => ⟨hx, by simp⟩
  | die m ms hms =>
    refine ⟨fun hf => by simp at hf, ?_, fun _ hf => by simp at hf⟩
    have := h.frozen
    exact ⟨this.pre, this.all⟩
  | late m hl hm =>
    -- nothing is in flight behind an end that was taken
    subst hxy
    have hnil := hok.after (.inr hl)
    cases m <;> simp [End.pipe] at hnil hm

/-- A finished receiver drops what arrives, and may answer with resets. -/
theorem drop_receiver (h : Dir window x y xy yx xOpen yOpen) (hy : y.finished = true) (xy' yx' : List (Msg α)) :
    Dir window x y xy' yx' xOpen yOpen :=
  ⟨fun hf => by simp [hy] at hf, ⟨h.frozen.pre, h.frozen.all⟩, fun _ hf => by simp [hy] at hf⟩

theorem drop_sender (h : Dir window x y xy yx xOpen yOpen) (hx : x.finished = true) (hms : ∀ m ∈ ms, m = .reset)
    (yx' : List (Msg α)) : Dir window x y (xy ++ if xOpen then ms else []) yx' xOpen yOpen := by
  refine h.frame rfl rfl ?_ ⟨rfl, rfl, rfl, rfl⟩ id fun hf => by simp [hx] at hf
  cases xOpen <;> simp [Msg.items_of_resets hms]

theorem close_sender (h : Dir window x y xy yx xOpen yOpen) : Dir window x y xy yx false yOpen :=
  ⟨fun hf => (h.ok hf).weaken, h.frozen, fun _ _ hxo => by simp at hxo⟩

theorem close_receiver (h : Dir window x y xy yx xOpen yOpen) : Dir window x y xy yx xOpen false :=
  ⟨h.ok, h.frozen, fun _ _ _ hyo => by simp at hyo⟩

end Dir

/-! ## Both directions -/

structure Duplex (α : Type u) where
  a : End α
  b : End α
  ab : List (Msg α)
  ba : List (Msg α)
  aOpen : Bool
  bOpen : Bool

namespace Duplex

variable {α : Type u}

/-- The same, seen from the other end. -/
def swap (d : Duplex α) : Duplex α := ⟨d.b, d.a, d.ba, d.ab, d.bOpen, d.aOpen⟩

/-- `Dir` both ways; an end is granted the other's window. -/
structure Inv (aWindow bWindow : Int) (d : Duplex α) : Prop where
  down : Dir aWindow d.a d.b d.ab d.ba d.aOpen d.bOpen
  up : Dir bWindow d.b d.a d.ba d.ab d.bOpen d.aOpen

variable {aWindow bWindow : Int} {d : Duplex α}

theorem Inv.swap (h : d.Inv aWindow bWindow) : d.swap.Inv bWindow aWindow := ⟨h.up, h.down⟩

theorem Inv.act (h : d.Inv aWindow bWindow) (hf : d.a.finished = false) {m : Option (Msg α)}
    {rest ms : List (Msg α)} {a' : End α} (hba : d.ba = m.toList ++ rest) (hs : d.a.Step m a' ms) :
    ({ d with a := a', ab := d.ab ++ (if d.aOpen then ms else []), ba := rest } : Duplex α).Inv aWindow bWindow :=
  ⟨h.down.sender hf hba hs, h.up.receiver hf hba hs⟩

theorem Inv.drop (h : d.Inv aWindow bWindow) (hf : d.a.finished = true) (rest : List (Msg α)) {ms : List (Msg α)}
    (hms : ∀ m ∈ ms, m = .reset) :
    ({ d with ab := d.ab ++ (if d.aOpen then ms else []), ba := rest } : Duplex α).Inv aWindow bWindow :=
  ⟨h.down.drop_sender hf hms _, h.up.drop_receiver hf _ _⟩

theorem Inv.run {a a' : End α} {ins outs : List (Msg α)} (hr : a.Run ins a' outs) :
    ∀ {d : Duplex α}, d.Inv aWindow bWindow → d.a = a → ∀ {rest : List (Msg α)}, d.ba = ins ++ rest →
      ({ d with a := a', ab := d.ab ++ (if d.aOpen then outs else []), ba := rest } : Duplex α).Inv
        aWindow bWindow := by
  induction hr with
  | refl =>
    intro d h ha rest hba
    obtain ⟨x, y, xy, yx, xo, yo⟩ := d
    subst ha
    simp only [List.nil_append] at hba
    subst hba
    simpa using h
  | step _ hf hs ih =>
    intro d h ha rest hba
    have h1 := (ih h ha (by rw [hba, List.append_assoc])).act hf rfl hs
    cases ho : d.aOpen <;> simpa [ho] using h1
  | drop _ hf hms ih =>
    intro d h ha rest hba
    have h1 := (ih h ha (by rw [hba, List.append_assoc])).drop hf rest hms
    cases ho : d.aOpen <;> simpa [ho] using h1

/-- A channel closes. -/
theorem Inv.close (h : d.Inv aWindow bWindow) {o : Bool} (ho : o = true → d.aOpen = true) :
    ({ d with aOpen := o } : Duplex α).Inv aWindow bWindow := by
  cases o with
  | false => exact ⟨h.down.close_sender, h.up.close_receiver⟩
  | true => rw [← ho rfl]; exact h

/-- Once both ends are finished, the channels do not matter. -/
theorem Inv.finished (h : d.Inv aWindow bWindow) (ha : d.a.finished = true) (hb : d.b.finished = true)
    (ab ba : List (Msg α)) (aOpen bOpen : Bool) :
    (⟨d.a, d.b, ab, ba, aOpen, bOpen⟩ : Duplex α).Inv aWindow bWindow :=
  ⟨⟨fun hf => by simp [hb] at hf, ⟨h.down.frozen.pre, h.down.frozen.all⟩, fun hf => by simp [ha] at hf⟩,
    ⟨fun hf => by simp [ha] at hf, ⟨h.up.frozen.pre, h.up.frozen.all⟩, fun hf => by simp [hb] at hf⟩⟩

/-- Two ends that have not begun, and nothing in flight. -/
theorem inv_fresh (aWindow bWindow : Int) (aOpen bOpen : Bool) :
    (⟨.fresh aWindow, .fresh bWindow, [], [], aOpen, bOpen⟩ : Duplex α).Inv aWindow bWindow := by
  have hok : ∀ (w w' : Int) (o : Bool), ((End.fresh w : End α).pipe (.fresh w') []).Ok o := by
    intro w w' o
    refine ⟨trivial, fun _ => rfl, fun _ => rfl, ?_, List.nil_prefix, fun _ => rfl, fun _ => rfl⟩
    rintro (h | h | h) <;> simp [End.pipe, End.fresh] at h
  exact ⟨.of_ok (hok _ _ _) fun _ _ _ _ => by simp [End.fresh],
    .of_ok (hok _ _ _) fun _ _ _ _ => by simp [End.fresh]⟩

end Duplex
