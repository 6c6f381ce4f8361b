import Mathlib.Data.List.Infix

/-! # Runs of a machine whose steps may not come back

A machine is a step function `step : σ → α → Except ε σ` over operations `α`: an operation either
leads to a next state or ends the run with the reason `ε` it did not come back for. Three notions
cover what the developments over it say about whole runs:

* `run step s ops`: the state after a list of operations;
* `Throughout step Q s ops`: the condition `Q` holds of every state the run passes through and the
  operation applied there;
* `Reaches step s ops t`: the run passes through `t`, after some of the operations.

`invariant_run` packages the induction over a run, and `throughout_iff_reached` turns a condition on
the steps into the exact boundary of a property of the states. -/

namespace Ohwes.Library
set_option autoImplicit false

theorem except_bind_ok {α β ε : Type} {x : Except ε α} {f : α → Except ε β} {r : β} :
    (x >>= f) = .ok r ↔ ∃ a, x = .ok a ∧ f a = .ok r := by
  cases x with
  | error e => simp [bind, Except.bind]
  | ok a => simp [bind, Except.bind]

section Machine
variable {σ α ε : Type} (step : σ → α → Except ε σ)

/-- The state after the operations `ops`, if every one of them comes back. -/
def run (s : σ) (ops : List α) : Except ε σ := ops.foldlM step s

@[simp] theorem run_nil (s : σ) : run step s [] = .ok s := rfl

theorem run_cons (s : σ) (a : α) (ops : List α) :
    run step s (a :: ops) = (step s a).bind fun t => run step t ops := rfl

theorem run_cons_ok {s t : σ} {a : α} {ops : List α} :
    run step s (a :: ops) = .ok t ↔ ∃ m, step s a = .ok m ∧ run step m ops = .ok t := by
  rw [run_cons]
  exact except_bind_ok

theorem run_append_ok {s t : σ} {ops more : List α} :
    run step s (ops ++ more) = .ok t ↔
      ∃ m, run step s ops = .ok m ∧ run step m more = .ok t := by
  induction ops generalizing s with
  | nil => simp
  | cons a ops ih =>
    rw [List.cons_append, run_cons_ok]
    constructor
    · rintro ⟨m, hs, hr⟩
      obtain ⟨k, hk, ht⟩ := ih.mp hr
      exact ⟨k, (run_cons_ok step).mpr ⟨m, hs, hk⟩, ht⟩
    · rintro ⟨k, hk, ht⟩
      obtain ⟨m, hs, hr⟩ := (run_cons_ok step).mp hk
      exact ⟨m, hs, ih.mpr ⟨k, hr, ht⟩⟩

/-- `Q` holds of every state the run passes through together with the operation applied there. -/
def Throughout (Q : σ → α → Prop) : σ → List α → Prop
  | _, [] => True
  | s, a :: ops => Q s a ∧ ∀ t, step s a = .ok t → Throughout Q t ops

/-- The run passes through `t`: some first part of the operations leads there. -/
def Reaches (s : σ) (ops : List α) (t : σ) : Prop :=
  ∃ pre, pre <+: ops ∧ run step s pre = .ok t

/-- A statement about the result of a call is decided by looking at the result. -/
instance decidableOnOk {β : Type} {P : β → Prop} [DecidablePred P] :
    (x : Except ε β) → Decidable (∀ t, x = .ok t → P t)
  | .error _ => .isTrue fun _ h => nomatch h
  | .ok t => decidable_of_iff (P t) ⟨fun h _ e => Except.ok.inj e ▸ h, fun h => h t rfl⟩

instance decidableExistsOk {β : Type} {P : β → Prop} [DecidablePred P] :
    (x : Except ε β) → Decidable (∃ t, x = .ok t ∧ P t)
  | .error _ => .isFalse fun ⟨_, h, _⟩ => nomatch h
  | .ok t => decidable_of_iff (P t) ⟨fun h => ⟨t, rfl, h⟩, fun ⟨_, e, h⟩ => Except.ok.inj e ▸ h⟩

instance decidableThroughout {Q : σ → α → Prop} [∀ s a, Decidable (Q s a)] :
    (s : σ) → (ops : List α) → Decidable (Throughout step Q s ops)
  | _, [] => .isTrue trivial
  | s, a :: ops =>
    haveI : DecidablePred fun t => Throughout step Q t ops := fun t => decidableThroughout t ops
    haveI : Decidable (∀ t, step s a = .ok t → Throughout step Q t ops) :=
      decidableOnOk (step s a)
    instDecidableAnd

variable {step}

theorem Reaches.start (s : σ) (ops : List α) : Reaches step s ops s :=
  ⟨[], List.nil_prefix, rfl⟩

theorem reaches_nil {s t : σ} : Reaches step s [] t ↔ t = s := by
  constructor
  · rintro ⟨pre, hp, hr⟩
    rw [List.prefix_nil] at hp
    subst hp
    exact (Except.ok.inj hr).symm
  · rintro rfl
    exact Reaches.start _ _

theorem reaches_cons {s t : σ} {a : α} {ops : List α} :
    Reaches step s (a :: ops) t ↔ t = s ∨ ∃ m, step s a = .ok m ∧ Reaches step m ops t := by
  constructor
  · rintro ⟨pre, hp, hr⟩
    cases pre with
    | nil => exact Or.inl (Except.ok.inj hr).symm
    | cons b pre =>
      obtain ⟨rfl, hp'⟩ := List.cons_prefix_cons.mp hp
      obtain ⟨m, hs, hm⟩ := (run_cons_ok step).mp hr
      exact Or.inr ⟨m, hs, pre, hp', hm⟩
  · rintro (rfl | ⟨m, hs, pre, hp, hm⟩)
    · exact Reaches.start _ _
    · exact ⟨a :: pre, List.cons_prefix_cons.mpr ⟨rfl, hp⟩, (run_cons_ok step).mpr ⟨m, hs, hm⟩⟩

theorem Reaches.of_run {s t : σ} {ops : List α} (h : run step s ops = .ok t) :
    Reaches step s ops t :=
  ⟨ops, List.prefix_refl ops, h⟩

theorem Throughout.mono {Q R : σ → α → Prop} (hQR : ∀ s a, Q s a → R s a) :
    ∀ {s : σ} {ops : List α}, Throughout step Q s ops → Throughout step R s ops
  | _, [], _ => trivial
  | _, _ :: _, h => ⟨hQR _ _ h.1, fun t ht => Throughout.mono hQR (h.2 t ht)⟩

theorem throughout_of_forall {Q : σ → α → Prop} (h : ∀ s a, Q s a) :
    ∀ {s : σ} {ops : List α}, Throughout step Q s ops
  | _, [] => trivial
  | s, a :: _ => ⟨h s a, fun _ _ => throughout_of_forall h⟩

theorem Throughout.of_prefix {Q : σ → α → Prop} {pre : List α} :
    ∀ {s : σ} {ops : List α}, pre <+: ops → Throughout step Q s ops → Throughout step Q s pre := by
  induction pre with
  | nil => intros; trivial
  | cons a pre ih =>
    intro s ops hp h
    obtain ⟨rest, rfl⟩ := hp
    exact ⟨h.1, fun t ht => ih ⟨rest, rfl⟩ (h.2 t ht)⟩

/-- An invariant kept by every step that meets `Q` holds at the end of a run that meets it. -/
theorem invariant_run {Q : σ → α → Prop} {Inv : σ → Prop}
    (hstep : ∀ s a t, Inv s → Q s a → step s a = .ok t → Inv t) :
    ∀ {s t : σ} {ops : List α}, Inv s → Throughout step Q s ops → run step s ops = .ok t → Inv t
  | s, t, [], hs, _, hr => by
      cases hr
      exact hs
  | s, t, a :: ops, hs, hq, hr => by
      obtain ⟨m, hm, hr'⟩ := (run_cons_ok step).mp hr
      exact invariant_run hstep (hstep s a m hs hq.1 hm) (hq.2 m hm) hr'

/-- The same for every state the run passes through. -/
theorem invariant_reaches {Q : σ → α → Prop} {Inv : σ → Prop}
    (hstep : ∀ s a t, Inv s → Q s a → step s a = .ok t → Inv t)
    {s t : σ} {ops : List α} (hs : Inv s) (hq : Throughout step Q s ops)
    (hr : Reaches step s ops t) : Inv t := by
  obtain ⟨pre, hp, hrun⟩ := hr
  exact invariant_run hstep hs (hq.of_prefix hp) hrun

/-- An invariant kept by every step holds in every state a run passes through. -/
theorem invariant_reached {Inv : σ → Prop} (hstep : ∀ s a t, Inv s → step s a = .ok t → Inv t)
    {s t : σ} {ops : List α} (hs : Inv s) (hr : Reaches step s ops t) : Inv t :=
  invariant_reaches (fun s a t hs (_ : True) h => hstep s a t hs h) hs
    (throughout_of_forall fun _ _ => trivial) hr

/-- What an invariant implies of a step that meets `Q` holds of every step of the run. -/
theorem Throughout.of_invariant {Q R : σ → α → Prop} {Inv : σ → Prop}
    (hstep : ∀ s a t, Inv s → Q s a → step s a = .ok t → Inv t)
    (hR : ∀ s a, Inv s → Q s a → R s a) :
    ∀ {s : σ} {ops : List α}, Inv s → Throughout step Q s ops → Throughout step R s ops
  | _, [], _, _ => trivial
  | s, a :: _, hs, hq =>
      ⟨hR s a hs hq.1, fun t ht =>
        Throughout.of_invariant hstep hR (hstep s a t hs hq.1 ht) (hq.2 t ht)⟩

theorem throughout_and {Q R : σ → α → Prop} : ∀ {s : σ} {ops : List α},
    Throughout step (fun s a => Q s a ∧ R s a) s ops ↔
      Throughout step Q s ops ∧ Throughout step R s ops
  | _, [] => by simp [Throughout]
  | s, a :: ops => by
      constructor
      · rintro ⟨⟨hq, hr⟩, h⟩
        exact ⟨⟨hq, fun t ht => (throughout_and.mp (h t ht)).1⟩, hr,
          fun t ht => (throughout_and.mp (h t ht)).2⟩
      · rintro ⟨⟨hq, h⟩, hr, k⟩
        exact ⟨⟨hq, hr⟩, fun t ht => throughout_and.mpr ⟨h t ht, k t ht⟩⟩

/-- A condition holds throughout a run if it holds after every first part that comes back. -/
theorem throughout_iff_split {Q : σ → α → Prop} : ∀ {s : σ} {ops : List α},
    Throughout step Q s ops ↔
      ∀ pre a post t, ops = pre ++ a :: post → run step s pre = .ok t → Q t a
  | s, [] => by simp [Throughout]
  | s, a :: ops => by
      constructor
      · rintro ⟨hq, hrest⟩ pre b post t he hr
        cases pre with
        | nil =>
          obtain ⟨rfl, -⟩ := List.cons.inj he
          cases hr
          exact hq
        | cons c pre =>
          obtain ⟨rfl, he'⟩ := List.cons.inj he
          obtain ⟨m, hm, hr'⟩ := (run_cons_ok step).mp hr
          exact throughout_iff_split.mp (hrest m hm) pre b post t he' hr'
      · intro h
        refine ⟨h [] a ops s rfl rfl, fun m hm => throughout_iff_split.mpr ?_⟩
        rintro pre b post t rfl hr
        exact h (a :: pre) b post t rfl ((run_cons_ok step).mpr ⟨m, hm, hr⟩)

/-- A property of all states of a run is one of its first state and of what every step leads to. -/
theorem reaches_iff_throughout {P : σ → Prop} : ∀ {s : σ} {ops : List α},
    (∀ t, Reaches step s ops t → P t) ↔
      P s ∧ Throughout step (fun s a => ∀ t, step s a = .ok t → P t) s ops
  | s, [] => by
      constructor
      · exact fun h => ⟨h s (Reaches.start s []), trivial⟩
      · rintro ⟨h, -⟩ t ht
        rw [reaches_nil] at ht
        exact ht ▸ h
  | s, a :: ops => by
      constructor
      · intro h
        refine ⟨h s (Reaches.start s _), fun t ht => ?_, fun t ht => ?_⟩
        · exact h t (reaches_cons.mpr (Or.inr ⟨t, ht, Reaches.start t ops⟩))
        · have hrest := fun u hu => h u (reaches_cons.mpr (Or.inr ⟨t, ht, hu⟩))
          exact (reaches_iff_throughout.mp hrest).2
      · rintro ⟨hs, hstep, hrest⟩ t ht
        obtain rfl | ⟨m, hm, ht⟩ := reaches_cons.mp ht
        · exact hs
        · exact reaches_iff_throughout.mpr ⟨hstep m hm, hrest m hm⟩ t ht

/-- Two conditions that agree, where the invariant holds, on the operations of a run agree on the
whole run. -/
theorem throughout_iff_mem {L : α → Prop} {P Q : σ → α → Prop} {Inv : σ → Prop}
    (hiff : ∀ s a, L a → Inv s → (P s a ↔ Q s a))
    (hstep : ∀ s a t, L a → Inv s → Q s a → step s a = .ok t → Inv t) :
    ∀ {s : σ} {ops : List α}, (∀ a ∈ ops, L a) → Inv s →
      (Throughout step P s ops ↔ Throughout step Q s ops)
  | _, [], _, _ => Iff.rfl
  | s, a :: ops, hl, hs => by
      have ha := hl a (List.mem_cons_self ..)
      unfold Throughout
      rw [hiff s a ha hs]
      refine and_congr_right fun hq => forall_congr' fun t => forall_congr' fun ht => ?_
      exact throughout_iff_mem hiff hstep (fun b hb => hl b (List.mem_cons_of_mem _ hb))
        (hstep s a t ha hs hq ht)

/-- Two conditions on a step that agree where the invariant holds agree on whole runs. -/
theorem throughout_iff {P Q : σ → α → Prop} {Inv : σ → Prop}
    (hiff : ∀ s a, Inv s → (P s a ↔ Q s a))
    (hstep : ∀ s a t, Inv s → Q s a → step s a = .ok t → Inv t)
    {s : σ} {ops : List α} (hs : Inv s) :
    Throughout step P s ops ↔ Throughout step Q s ops :=
  throughout_iff_mem (fun s a (_ : True) h => hiff s a h) (fun s a t _ h hq ht => hstep s a t h hq ht)
    (fun _ _ => trivial) hs

/-- **Exact boundary.** If, from a state of the invariant, a step leads to a state of `P` exactly
when it meets `Q`, then the states a run passes through are all in `P` exactly when every step of
the run meets `Q`. -/
theorem throughout_iff_reached {Q : σ → α → Prop} {Inv P : σ → Prop}
    (hP : ∀ s, Inv s → P s)
    (hstep : ∀ s a t, Inv s → Q s a → step s a = .ok t → Inv t)
    (hbad : ∀ s a, Inv s → ¬ Q s a → ∃ t, step s a = .ok t ∧ ¬ P t) :
    ∀ {s : σ} {ops : List α}, Inv s →
      ((∀ t, Reaches step s ops t → P t) ↔ Throughout step Q s ops)
  | s, [], hs => by
      constructor
      · intro _; trivial
      · intro _ t ht
        rw [reaches_nil] at ht
        subst ht
        exact hP _ hs
  | s, a :: ops, hs => by
      constructor
      · intro h
        have hq : Q s a := by
          by_contra hn
          obtain ⟨t, ht, hnp⟩ := hbad s a hs hn
          exact hnp (h t (reaches_cons.mpr (Or.inr ⟨t, ht, Reaches.start t ops⟩)))
        refine ⟨hq, fun t ht => ?_⟩
        refine (throughout_iff_reached hP hstep hbad (hstep s a t hs hq ht)).mp fun u hu => ?_
        exact h u (reaches_cons.mpr (Or.inr ⟨t, ht, hu⟩))
      · intro h t ht
        exact hP t (invariant_reaches hstep hs h ht)

end Machine

end Ohwes.Library
