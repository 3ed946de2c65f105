import UpTunnel.Lib.Duplex

/-!
# UpTunnel.Lib.Account

The whole life of an `End`, from the messages that it has consumed and sent: `Duplex.Inv` needs both ends to be
`End`s, an `Account` asks nothing of the other one.

* `End.Account`: what the messages consumed and sent leave of credit, bytes and acknowledgements.
* `End.Run.account`: every run of a fresh end keeps it, as long as nothing follows an end marker.
-/

universe u

namespace Item

variable {α : Type u} {l l' : List (Item α)}

theorem EofLast.of_append (h : EofLast (l ++ l')) : EofLast l := by
  induction l with
  | nil => trivial
  | cons i l ih =>
    cases i with
    | chunk xs => exact ih h
    | eof => exact (List.append_eq_nil_iff.mp h).1

/-- Nothing follows an end marker. -/
theorem EofLast.nil_of_mem (h : EofLast (l ++ l')) (hm : eof ∈ l) : l' = [] := by
  induction l with
  | nil => cases hm
  | cons i l ih =>
    cases i with
    | chunk xs => exact ih h ((List.mem_cons.mp hm).resolve_left nofun)
    | eof => exact (List.append_eq_nil_iff.mp h).2

/-- A part that has the end marker is all. -/
theorem EofLast.eq_of_prefix (h : EofLast l') (hp : l <+: l') (hm : eof ∈ l) : l = l' := by
  obtain ⟨rest, rfl⟩ := hp
  rw [h.nil_of_mem hm, List.append_nil]

theorem elems_prefix (hp : l <+: l') : elems l <+: elems l' := by
  obtain ⟨rest, rfl⟩ := hp
  rw [elems_append]
  exact List.prefix_append _ _

end Item

theorem Msg.items_prefix {α : Type u} {ms ms' : List (Msg α)} (hp : ms <+: ms') : items ms <+: items ms' := by
  obtain ⟨rest, rfl⟩ := hp
  rw [items_append]
  exact List.prefix_append _ _

namespace End

variable {α : Type u}

structure Account (window : Int) (ins : List (Msg α)) (e : End α) (outs : List (Msg α)) : Prop where
  pushed : Item.elems (Msg.items outs) = e.pushed
  pushedEof : Item.eof ∈ Msg.items outs ↔ e.pushedEof = true
  outLast : Item.EofLast (Msg.items outs)
  credit : e.finished = false → e.credit + e.pushed.length = window + Msg.acks ins
  taken : e.taken ++ e.held <+: Item.elems (Msg.items ins)
  all : e.finished = false ∨ e.takenEof = true → e.taken ++ e.held = Item.elems (Msg.items ins)
  ended : e.takenEof = true → e.held = [] ∧ Item.eof ∈ Msg.items ins
  endHeld : e.heldEof = true → Item.eof ∈ Msg.items ins
  acked : Msg.acks outs + e.unacked = e.taken.length

theorem account_fresh (window : Int) : (End.fresh window : End α).Account window [] [] where
  pushed := rfl
  pushedEof := by simp [End.fresh]
  outLast := trivial
  credit _ := by simp [End.fresh]
  taken := List.prefix_rfl
  all _ := rfl
  ended h := by simp [End.fresh] at h
  endHeld h := by simp [End.fresh] at h
  acked := rfl

variable {window : Int} {e e' : End α} {ins outs ms : List (Msg α)} {m : Option (Msg α)}

/-- Resets say nothing. -/
theorem Account.resets (h : e.Account window ins outs) (hms : ∀ m ∈ ms, m = .reset) :
    e.Account window ins (outs ++ ms) := by
  have hi : Msg.items (outs ++ ms) = Msg.items outs := by
    rw [Msg.items_append, Msg.items_of_resets hms, List.append_nil]
  have ha : Msg.acks ms = 0 := by
    clear hi
    induction ms with
    | nil => rfl
    | cons m ms ih =>
      rw [hms m List.mem_cons_self]
      exact ih fun m hm => hms m (List.mem_cons_of_mem _ hm)
  refine ⟨by rw [hi]; exact h.pushed, by rw [hi]; exact h.pushedEof, by rw [hi]; exact h.outLast, h.credit, h.taken,
    h.all, h.ended, h.endHeld, ?_⟩
  rw [Msg.acks_append, ha]
  exact h.acked

/-- What a finished end drops. -/
theorem Account.drop (h : e.Account window ins outs) (hf : e.finished = true)
    (hl : Item.EofLast (Msg.items (ins ++ m.toList))) : e.Account window (ins ++ m.toList) outs := by
  have hi : Msg.items (ins ++ m.toList) = Msg.items ins ++ Msg.items m.toList := Msg.items_append _ _
  refine ⟨h.pushed, h.pushedEof, h.outLast, fun hn => by simp [hf] at hn, ?_, fun ht => ?_, fun ht => ?_,
    fun hh => ?_, h.acked⟩
  · rw [hi, Item.elems_append]
    exact h.taken.trans (List.prefix_append _ _)
  · have ht : e.takenEof = true := ht.resolve_left (by simp [hf])
    rw [hi] at hl ⊢
    rw [hl.nil_of_mem (h.ended ht).2, List.append_nil]
    exact h.all (.inr ht)
  · rw [hi]
    exact ⟨(h.ended ht).1, List.mem_append_left _ (h.ended ht).2⟩
  · rw [hi]
    exact List.mem_append_left _ (h.endHeld hh)

theorem Account.step (h : e.Account window ins outs) (hf : e.finished = false)
    (hl : Item.EofLast (Msg.items (ins ++ m.toList))) (hs : e.Step m e' ms) :
    e'.Account window (ins ++ m.toList) (outs ++ ms) := by
  have hopen : e.pushedEof = false → Item.eof ∉ Msg.items outs := fun he hm => by simp [h.pushedEof.mp hm] at he
  have hall := h.all (.inl hf)
  cases hs with
  | push xs he =>
    refine ⟨?_, ?_, ?_, fun _ => ?_, ?_, ?_, ?_, ?_, ?_⟩
    · simp [h.pushed]
    · simp [h.pushedEof]
    · simpa using h.outLast.append (hopen he) (.chunk xs)
    · have := h.credit hf
      simp only [Option.toList_none, List.append_nil, List.length_append]
      omega
    · simpa using h.taken
    · simpa using h.all
    · simpa using h.ended
    · simpa using h.endHeld
    · simpa using h.acked
  | pushEof he =>
    refine ⟨?_, ?_, ?_, fun _ => ?_, ?_, ?_, ?_, ?_, ?_⟩
    · simp [h.pushed]
    · simp
    · simpa using h.outLast.append (hopen he) .eof
    · simpa using h.credit hf
    · simpa using h.taken
    · simpa using hall
    · simpa using h.ended
    · simpa using h.endHeld
    · simpa using h.acked
  | hold xs ht =>
    have heq : e.taken ++ (e.held ++ xs) = Item.elems (Msg.items (ins ++ [Msg.data xs])) := by
      simp [← hall]
    refine ⟨by simpa using h.pushed, by simpa using h.pushedEof, by simpa using h.outLast, fun _ => ?_, ?_,
      fun _ => heq, fun hte => ?_, fun hh => ?_, by simpa using h.acked⟩
    · simpa using h.credit hf
    · exact heq ▸ List.prefix_rfl
    · exact absurd (ht.symm.trans hte) (by simp)
    · simpa using h.endHeld hh
  | holdEof ht =>
    refine ⟨by simpa using h.pushed, by simpa using h.pushedEof, by simpa using h.outLast, fun _ => ?_, ?_, ?_,
      fun hte => ?_, fun _ => ?_, by simpa using h.acked⟩
    · simpa using h.credit hf
    · simpa using h.taken
    · simpa using h.all
    · exact absurd (ht.symm.trans hte) (by simp)
    · simp
  | take xs ys ns r hh ht hr =>
    have heq : e.taken ++ xs ++ ys = e.taken ++ e.held := by rw [hh, List.append_assoc]
    refine ⟨by simpa using h.pushed, by simpa using h.pushedEof, by simpa using h.outLast, fun _ => ?_, ?_, ?_,
      fun hte => ?_, by simpa using h.endHeld, ?_⟩
    · simpa using h.credit hf
    · simpa [heq] using h.taken
    · simpa [heq] using h.all
    · exact absurd (ht.symm.trans hte) (by simp)
    · have := h.acked
      simp only [Msg.acks_append, Msg.acks_map_ack, List.length_append]
      omega
  | takeEof ns hh hhe hr =>
    refine ⟨by simpa using h.pushed, by simpa using h.pushedEof, by simpa using h.outLast, fun _ => ?_, ?_, ?_,
      fun _ => ?_, nofun, ?_⟩
    · simpa using h.credit hf
    · simpa using h.taken
    · simpa using hall
    · simpa using ⟨hh, h.endHeld hhe⟩
    · have := h.acked
      simp only [Msg.acks_append, Msg.acks_map_ack]
      omega
  | flush ns r hr =>
    refine ⟨by simpa using h.pushed, by simpa using h.pushedEof, by simpa using h.outLast, fun _ => ?_, ?_, ?_, ?_,
      ?_, ?_⟩
    · simpa using h.credit hf
    · simpa using h.taken
    · simpa using h.all
    · simpa using h.ended
    · simpa using h.endHeld
    · have := h.acked
      simp only [Msg.acks_append, Msg.acks_map_ack]
      omega
  | grant n =>
    refine ⟨by simpa using h.pushed, by simpa using h.pushedEof, by simpa using h.outLast, fun _ => ?_, ?_, ?_, ?_,
      ?_, ?_⟩
    · have := h.credit hf
      simp only [Option.toList_some, Msg.acks_append, Msg.acks_ack, Msg.acks_nil]
      omega
    · simpa using h.taken
    · simpa using h.all
    · simpa using h.ended
    · simpa using h.endHeld
    · simpa using h.acked
  | die m ms hms =>
    have hd : Account window ins { e with finished := true } outs :=
      ⟨h.pushed, h.pushedEof, h.outLast, nofun, h.taken, fun _ => hall, h.ended, h.endHeld, h.acked⟩
    exact (hd.drop rfl hl).resets hms
  | late m ht hne =>
    -- nothing follows the end marker that was taken
    rw [Msg.items_append] at hl
    exact absurd (hl.nil_of_mem (h.ended ht).2) hne

/-- What an end has to show for the messages of its life. -/
theorem Run.account (hr : (End.fresh window).Run ins e outs) :
    Item.EofLast (Msg.items ins) → e.Account window ins outs := by
  induction hr with
  | refl => exact fun _ => account_fresh window
  | @step ins outs ms e e' m _ hf hs ih =>
    intro hl
    have hl' : Item.EofLast (Msg.items ins) := by
      rw [Msg.items_append] at hl
      exact hl.of_append
    exact (ih hl').step hf hl hs
  | @drop ins outs ms e m _ hf hms ih =>
    intro hl
    have hl' : Item.EofLast (Msg.items ins) := by
      rw [Msg.items_append] at hl
      exact hl.of_append
    exact ((ih hl').drop hf hl).resets hms

end End
