/-!
# UpTunnel.Lib.Reach

Runs of a labelled transition system.

* `Reach step ok init s`: `s` is reached from a state of `init` by steps that `ok` allows in the
  state they start from. `Reachable` is the case where every step is allowed.
* `Reach.invariant`: the induction rule for a property of every reached state.
* `ofFn`: the steps of a partial function; `none` means that the event is not possible.
* `exec`: the run of a list of events of a partial function, and `Reach.exec`, which turns a run
  that was computed into a reached state; `execOk` where the steps have to be allowed.
* `foldl_iff`: when a property of every step of a run amounts to a condition on every step.
-/

namespace Lts

universe u v

variable {σ : Type u} {ε : Type v}

inductive Reach (step : σ → ε → σ → Prop) (ok : σ → ε → Prop) (init : σ → Prop) : σ → Prop where
  | start {s : σ} : init s → Reach step ok init s
  | next {s s' : σ} {e : ε} :
      Reach step ok init s → ok s e → step s e s' → Reach step ok init s'

abbrev Reachable (step : σ → ε → σ → Prop) (init : σ → Prop) : σ → Prop :=
  Reach step (fun _ _ => True) init

section
variable {step : σ → ε → σ → Prop} {ok ok' : σ → ε → Prop} {init : σ → Prop} {s : σ}

/-- A property of the initial states that every allowed step keeps holds in every reached state.
The step may use that its state is itself reached. -/
theorem Reach.invariant {I : σ → Prop} (h0 : ∀ s, init s → I s)
    (hs : ∀ s e s', Reach step ok init s → I s → ok s e → step s e s' → I s')
    (h : Reach step ok init s) : I s := by
  induction h with
  | start hi => exact h0 _ hi
  | next hr hok hstep ih => exact hs _ _ _ hr ih hok hstep

theorem Reach.mono (h : Reach step ok init s) (hok : ∀ s e, ok s e → ok' s e) :
    Reach step ok' init s := by
  induction h with
  | start hi => exact .start hi
  | next _ ho hstep ih => exact .next ih (hok _ _ ho) hstep

/-- A run, and another one from where it has ended. -/
theorem Reach.trans {s' : σ} (h : Reach step ok init s) (h' : Reach step ok (· = s) s') : Reach step ok init s' := by
  induction h' with
  | start he =>
    subst he
    exact h
  | next _ hok hstep ih => exact ih.next hok hstep

theorem Reach.reachable (h : Reach step ok init s) : Reachable step init s :=
  h.mono fun _ _ _ => trivial

end

/-- The steps of a partial function. -/
def ofFn (f : σ → ε → Option σ) : σ → ε → σ → Prop := fun s e s' => f s e = some s'

variable {f : σ → ε → Option σ} {init : σ → Prop}

/-- The events of a list, one after the other. -/
def exec (f : σ → ε → Option σ) : σ → List ε → Option σ
  | s, [] => some s
  | s, e :: es => (f s e).bind (exec f · es)

theorem exec_append {es es' : List ε} :
    ∀ {s : σ}, exec f s (es ++ es') = (exec f s es).bind (exec f · es') := by
  induction es with
  | nil => intro s; rfl
  | cons e es ih =>
    intro s
    simp only [List.cons_append, exec]
    cases f s e with
    | none => rfl
    | some s1 => exact ih

theorem Reach.exec {ok : σ → ε → Prop} {es : List ε} {s s' : σ} (h : Reach (ofFn f) ok init s)
    (hok : ∀ e ∈ es, ∀ s, ok s e) (hx : exec f s es = some s') : Reach (ofFn f) ok init s' := by
  induction es generalizing s with
  | nil => cases hx; exact h
  | cons e es ih =>
    simp only [Lts.exec] at hx
    cases hs : f s e with
    | none => simp [hs] at hx
    | some s1 =>
      rw [hs] at hx
      exact ih (h.next (hok e List.mem_cons_self s) hs) (fun e he => hok e (List.mem_cons_of_mem _ he)) hx

theorem Reachable.exec {es : List ε} {s s' : σ} (h : Reachable (ofFn f) init s)
    (hx : exec f s es = some s') : Reachable (ofFn f) init s' :=
  Reach.exec h (fun _ _ _ => trivial) hx

/-- The events of a list, as long as each is possible and allowed where it happens. -/
def execOk (f : σ → ε → Option σ) (ok : σ → ε → Prop) [∀ s e, Decidable (ok s e)] :
    σ → List ε → Option σ :=
  exec fun s e => if ok s e then f s e else none

theorem Reach.execOk {ok : σ → ε → Prop} [∀ s e, Decidable (ok s e)] {es : List ε} {s s' : σ}
    (h : Reach (ofFn f) ok init s) (hx : Lts.execOk f ok s es = some s') : Reach (ofFn f) ok init s' := by
  induction es generalizing s with
  | nil => cases hx; exact h
  | cons e es ih =>
    simp only [Lts.execOk, Lts.exec] at hx
    by_cases ho : ok s e
    · rw [if_pos ho] at hx
      cases hs : f s e with
      | none => simp [hs] at hx
      | some s1 =>
        rw [hs] at hx
        exact ih (h.next ho hs) hx
    · simp [ho] at hx

/-! ## Runs of a total function -/

section
variable {α : Type v} {f : σ → α → σ}

theorem split_cons_iff {Q : List α → α → Prop} {b : α} {as : List α} :
    (∀ pre a post, b :: as = pre ++ a :: post → Q pre a) ↔
    Q [] b ∧ ∀ pre a post, as = pre ++ a :: post → Q (b :: pre) a := by
  constructor
  · intro h
    exact ⟨h [] b as rfl, fun pre a post he => h (b :: pre) a post (by rw [he, List.cons_append])⟩
  · intro h pre a post he
    cases pre with
    | nil =>
      obtain ⟨rfl, -⟩ := List.cons.inj he
      exact h.1
    | cons c pre =>
      obtain ⟨rfl, hrest⟩ := List.cons.inj he
      exact h.2 pre a post hrest

/-- Where `P` and `C` agree in good states, and `C` leads from one to the next, they agree on every step of a run. -/
theorem foldl_iff {Good : List α → σ → Prop} {P C : List α → σ → α → Prop}
    (hiff : ∀ {past s a}, Good past s → (P past s a ↔ C past s a))
    (hstep : ∀ {past s a}, Good past s → C past s a → Good (past ++ [a]) (f s a)) (as : List α) :
    ∀ {past s}, Good past s →
      ((∀ pre a post, as = pre ++ a :: post → P (past ++ pre) (pre.foldl f s) a) ↔
        ∀ pre a post, as = pre ++ a :: post → C (past ++ pre) (pre.foldl f s) a) := by
  induction as with
  | nil => intro past s _; simp
  | cons b as ih =>
    intro past s hg
    rw [split_cons_iff (Q := fun pre a => P (past ++ pre) (pre.foldl f s) a),
      split_cons_iff (Q := fun pre a => C (past ++ pre) (pre.foldl f s) a)]
    simp only [List.append_nil, List.foldl_nil, List.foldl_cons, hiff hg]
    refine and_congr_right fun hc => ?_
    simpa using ih (hstep hg hc)

end

end Lts
