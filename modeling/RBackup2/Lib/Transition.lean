import Mathlib.Data.List.Induction

/-!
# Executable transition systems

A system is a partial step function `step : σ → α → Option σ`; `none` means that the action is
not one the system can take in that state.

* `exec` — the state after a list of actions, with `exec_append` / `exec_concat` to cut a run and
  `exec_take` for the state at an index;
* `trace` — what a run outputs along the way, with `mem_trace_map` to compare two outputs;
* `exec_invariant`, `exec_along`, `exec_history` — the induction rules: an invariant of every
  step, an invariant of the steps taken under a guard, and an invariant that also mentions
  the actions taken so far;
* `Happened` — what was done in a run, and `Happened.append` that it has been done ever since;
* `forall_states_iff_along` — the guard that is exactly what a property of all states needs;
* `exec_simulation`, `exec_stuttering` — simulation of one system by another, in lock step or with
  actions the other one does not see;
* `Interleaving` — components that take steps on a shared state, one at a time, in any order;
  `eventsOf` are the events of one of them, `exec_sweep` serves them one after the other.
-/

set_option autoImplicit false

namespace Transition

variable {σ τ α β γ : Type}

/-- The state after the actions of a list, taken in order. -/
def exec (step : σ → α → Option σ) : σ → List α → Option σ
  | s, [] => some s
  | s, a :: as => (step s a).bind fun s' => exec step s' as

/-- What the actions of a list output, in order. -/
def trace (step : σ → α → Option σ) (out : σ → α → List β) : σ → List α → List β
  | _, [] => []
  | s, a :: as => out s a ++ match step s a with
    | some s' => trace step out s' as
    | none => []

/-- `G` holds of every state and action of the run. -/
def Along (step : σ → α → Option σ) (G : σ → α → Prop) : σ → List α → Prop
  | _, [] => True
  | s, a :: as => G s a ∧ ∀ s', step s a = some s' → Along step G s' as

section Runs

variable {step : σ → α → Option σ}

@[simp] theorem exec_nil (s : σ) : exec step s [] = some s := rfl

theorem exec_cons {s t : σ} {a : α} {as : List α} :
    exec step s (a :: as) = some t ↔ ∃ s', step s a = some s' ∧ exec step s' as = some t := by
  simp [exec, Option.bind_eq_some_iff]

theorem exec_append {s t : σ} {as bs : List α} :
    exec step s (as ++ bs) = some t ↔ ∃ m, exec step s as = some m ∧ exec step m bs = some t := by
  induction as generalizing s with
  | nil => simp
  | cons a as ih =>
    simp only [List.cons_append, exec_cons, ih]
    constructor
    · rintro ⟨s', hs, m, hm, ht⟩
      exact ⟨m, ⟨s', hs, hm⟩, ht⟩
    · rintro ⟨m, ⟨s', hs, hm⟩, ht⟩
      exact ⟨s', hs, m, hm, ht⟩

theorem exec_concat {s t : σ} {as : List α} {a : α} :
    exec step s (as ++ [a]) = some t ↔ ∃ m, exec step s as = some m ∧ step m a = some t := by
  simp [exec_append, exec_cons]

theorem along_append {G : σ → α → Prop} {s : σ} {as bs : List α} :
    Along step G s (as ++ bs) ↔
      Along step G s as ∧ ∀ m, exec step s as = some m → Along step G m bs := by
  induction as generalizing s with
  | nil => simp [Along]
  | cons a as ih =>
    simp only [List.cons_append, Along, ih, exec_cons]
    constructor
    · rintro ⟨ha, hrest⟩
      refine ⟨⟨ha, fun s' hs => (hrest s' hs).1⟩, ?_⟩
      rintro m ⟨s', hs, hm⟩
      exact (hrest s' hs).2 m hm
    · rintro ⟨⟨ha, hrest⟩, hlast⟩
      exact ⟨ha, fun s' hs => ⟨hrest s' hs, fun m hm => hlast m ⟨s', hs, hm⟩⟩⟩

theorem along_concat {G : σ → α → Prop} {s : σ} {as : List α} {a : α} :
    Along step G s (as ++ [a]) ↔ Along step G s as ∧ ∀ m, exec step s as = some m → G m a := by
  simp [along_append, Along]

/-- What holds of the actions in every state holds along their run. -/
theorem along_of_forall {G : σ → α → Prop} :
    ∀ {as : List α}, (∀ a ∈ as, ∀ s, G s a) → ∀ s, Along step G s as
  | [], _, _ => trivial
  | _ :: _, h, s => by
    obtain ⟨ha, hrest⟩ := List.forall_mem_cons.1 h
    exact ⟨ha s, fun s' _ => along_of_forall hrest s'⟩

/-- What holds along a run holds of its actions, in the states they are taken in. -/
theorem along_at {G : σ → α → Prop} {s m : σ} {pre post : List α} {a : α}
    (h : Along step G s (pre ++ a :: post)) (hm : exec step s pre = some m) : G m a := by
  induction pre generalizing s with
  | nil => cases hm; exact h.1
  | cons b pre ih =>
    obtain ⟨s', hs, hm⟩ := exec_cons.1 hm
    exact ih (h.2 s' hs) hm

/-- A run passes through a state after any number of its actions. -/
theorem exec_take {s t : σ} {as : List α} (h : exec step s as = some t) (i : Nat) :
    ∃ m, exec step s (as.take i) = some m := by
  rw [← List.take_append_drop i as] at h
  obtain ⟨m, hm, -⟩ := exec_append.1 h
  exact ⟨m, hm⟩

/-- The next action takes one of these states to the next. -/
theorem exec_take_succ {s m m' : σ} {as : List α} {i : Nat} {a : α} (ha : as[i]? = some a)
    (hm : exec step s (as.take i) = some m) (hm' : exec step s (as.take (i + 1)) = some m') :
    step m a = some m' := by
  rw [List.take_add_one, ha] at hm'
  obtain ⟨k, hk, hstep⟩ := exec_concat.1 hm'
  cases hm.symm.trans hk
  exact hstep

theorem along_take {G : σ → α → Prop} {s m : σ} {as : List α} {i : Nat} {a : α}
    (h : Along step G s as) (ha : as[i]? = some a) (hm : exec step s (as.take i) = some m) :
    G m a := by
  obtain ⟨hi, rfl⟩ := List.getElem?_eq_some_iff.1 ha
  have hsplit : Along step G s (as.take i ++ as[i] :: as.drop (i + 1)) := by
    rw [List.getElem_cons_drop, List.take_append_drop]
    exact h
  exact along_at hsplit hm

/-- **Invariant rule**: what every step preserves, every run preserves. -/
theorem exec_invariant {I : σ → Prop}
    (hstep : ∀ s a s', I s → step s a = some s' → I s') :
    ∀ {as : List α} {s t : σ}, I s → exec step s as = some t → I t
  | [], _, _, h, he => by cases he; exact h
  | _ :: _, _, _, h, he => by
    obtain ⟨s', hs, ht⟩ := exec_cons.1 he
    exact exec_invariant hstep (hstep _ _ _ h hs) ht

/-- **Guarded invariant rule**: an invariant of the steps taken under `G` holds after every
    run all of whose steps are. -/
theorem exec_along {I : σ → Prop} {G : σ → α → Prop}
    (hstep : ∀ s a s', I s → G s a → step s a = some s' → I s') :
    ∀ {as : List α} {s t : σ}, I s → Along step G s as → exec step s as = some t → I t
  | [], _, _, h, _, he => by cases he; exact h
  | _ :: _, _, _, h, hg, he => by
    obtain ⟨s', hs, ht⟩ := exec_cons.1 he
    exact exec_along hstep (hstep _ _ _ h hg.1 hs) (hg.2 s' hs) ht

/-- **Exact guard**: if `G` says of every step from a state with `P` whether `P` holds after it,
    then `P` holds in all the states of a run exactly when `G` holds along it. -/
theorem forall_states_iff_along {P : σ → Prop} {G : σ → α → Prop}
    (hstep : ∀ s a s', P s → step s a = some s' → (P s' ↔ G s a)) :
    ∀ {as : List α} {s t : σ}, P s → exec step s as = some t →
      ((∀ pre post m, as = pre ++ post → exec step s pre = some m → P m) ↔ Along step G s as)
  | [], s, _, h, _ => by
    refine ⟨fun _ => trivial, fun _ pre post m hsplit hm => ?_⟩
    rw [(List.append_eq_nil_iff.1 hsplit.symm).1] at hm
    cases hm
    exact h
  | a :: as, s, t, h, he => by
    obtain ⟨s', hs, ht⟩ := exec_cons.1 he
    constructor
    · intro hall
      have h' : P s' := hall [a] as s' rfl (exec_cons.2 ⟨s', hs, rfl⟩)
      refine ⟨(hstep s a s' h hs).1 h', fun s'' hs'' => ?_⟩
      cases hs.symm.trans hs''
      refine (forall_states_iff_along hstep h' ht).1 fun pre post m hsplit hm => ?_
      exact hall (a :: pre) post m (by rw [hsplit]; rfl) (exec_cons.2 ⟨s', hs, hm⟩)
    · rintro ⟨hg, hrest⟩ pre post m hsplit hm
      have h' := (hstep s a s' h hs).2 hg
      cases pre with
      | nil => cases hm; exact h
      | cons b pre =>
        cases hsplit
        obtain ⟨s'', hs'', hm⟩ := exec_cons.1 hm
        cases hs.symm.trans hs''
        exact (forall_states_iff_along hstep h' ht).2 (hrest s' hs) pre post m rfl hm

/-- **History rule**: the invariant may mention the actions taken since the start. -/
theorem exec_history {P : List α → σ → Prop} {s : σ} (h0 : P [] s)
    (hstep : ∀ as m a m', exec step s as = some m → P as m → step m a = some m' →
      P (as ++ [a]) m') :
    ∀ {as : List α} {t : σ}, exec step s as = some t → P as t := by
  intro as
  induction as using List.reverseRecOn with
  | nil => intro t he; cases he; exact h0
  | append_singleton as a ih =>
    intro t he
    obtain ⟨m, hm, ht⟩ := exec_concat.1 he
    exact hstep as m a t hm (ih hm) ht

/-- An action of the run had `Q`, with the actions before it and the state they had led to. -/
def Happened (step : σ → α → Option σ) (s : σ) (Q : List α → σ → α → Prop) (as : List α) : Prop :=
  ∃ pre a post m, as = pre ++ a :: post ∧ exec step s pre = some m ∧ Q pre m a

theorem Happened.now {s t : σ} {Q : List α → σ → α → Prop} {as : List α} {a : α}
    (h : exec step s as = some t) (hQ : Q as t a) : Happened step s Q (as ++ [a]) :=
  ⟨as, a, [], t, rfl, h, hQ⟩

/-- What has been done has been done ever since. -/
theorem Happened.append {s : σ} {Q : List α → σ → α → Prop} {as : List α}
    (h : Happened step s Q as) (bs : List α) : Happened step s Q (as ++ bs) := by
  obtain ⟨pre, a, post, m, rfl, hm, hQ⟩ := h
  exact ⟨pre, a, post ++ bs, m, by rw [List.append_assoc, List.cons_append], hm, hQ⟩

theorem trace_append (out : σ → α → List β) {as bs : List α} {s m : σ}
    (h : exec step s as = some m) :
    trace step out s (as ++ bs) = trace step out s as ++ trace step out m bs := by
  induction as generalizing s with
  | nil => cases h; rfl
  | cons a as ih =>
    obtain ⟨s', hs, hm⟩ := exec_cons.1 h
    simp only [List.cons_append, trace, hs, ih hm, List.append_assoc]

theorem trace_concat (out : σ → α → List β) {as : List α} {a : α} {s m m' : σ}
    (h : exec step s as = some m) (ha : step m a = some m') :
    trace step out s (as ++ [a]) = trace step out s as ++ out m a := by
  rw [trace_append out h]
  simp [trace, ha]

/-- What is output is seen by whoever sees more of every step. -/
theorem mem_trace_map {δ : Type} {out : σ → α → List β} {out' : σ → α → List δ} {f : β → δ}
    (h : ∀ s a, ∀ x ∈ out s a, f x ∈ out' s a) :
    ∀ {as : List α} {s : σ}, ∀ x ∈ trace step out s as, f x ∈ trace step out' s as
  | [], _, _, hx => by cases hx
  | a :: as, s, x, hx => by
    rw [trace, List.mem_append] at hx ⊢
    rcases hx with hx | hx
    · exact .inl (h s a x hx)
    · right
      cases hs : step s a with
      | none => simp [hs] at hx
      | some s' =>
        simp only [hs] at hx ⊢
        exact mem_trace_map h x hx

/-- **Lock-step simulation**: if related states answer every action with the same output and
    related states again, the simulating system takes the same run with the same trace. -/
theorem exec_simulation {step' : τ → α → Option τ} {out : σ → α → List β} {out' : τ → α → List β}
    {R : σ → τ → Prop}
    (hstep : ∀ s t a s', R s t → step s a = some s' →
      ∃ t', step' t a = some t' ∧ R s' t' ∧ out' t a = out s a) :
    ∀ {as : List α} {s s' : σ} {t : τ}, R s t → exec step s as = some s' →
      ∃ t', exec step' t as = some t' ∧ R s' t' ∧ trace step' out' t as = trace step out s as
  | [], _, _, t, h, he => by cases he; exact ⟨t, rfl, h, rfl⟩
  | a :: as, s, s', t, h, he => by
    obtain ⟨s₁, hs, hrest⟩ := exec_cons.1 he
    obtain ⟨t₁, ht, hR, ho⟩ := hstep s t a s₁ h hs
    obtain ⟨t', ht', hR', htr⟩ := exec_simulation hstep hR hrest
    refine ⟨t', exec_cons.2 ⟨t₁, ht, ht'⟩, hR', ?_⟩
    simp only [trace, hs, ht, ho, htr]

/-- **Stuttering simulation**: if the simulating system answers an action with its event, and stays
    where it is if the action has none, it takes the run of the events. -/
theorem exec_stuttering {ε : Type} {step' : τ → ε → Option τ} {event : α → Option ε}
    {G : α → Prop} {R : σ → τ → Prop}
    (hstep : ∀ s t a s', R s t → G a → step s a = some s' →
      ∃ t', exec step' t (event a).toList = some t' ∧ R s' t') :
    ∀ {as : List α} {s s' : σ} {t : τ}, R s t → (∀ a ∈ as, G a) → exec step s as = some s' →
      ∃ t', exec step' t (as.filterMap event) = some t' ∧ R s' t'
  | [], _, _, t, h, _, he => by cases he; exact ⟨t, rfl, h⟩
  | a :: as, s, s', t, h, hall, he => by
    obtain ⟨s₁, hs, hrest⟩ := exec_cons.1 he
    obtain ⟨ha, has⟩ := List.forall_mem_cons.1 hall
    obtain ⟨t₁, ht, hR⟩ := hstep s t a s₁ h ha hs
    obtain ⟨t', ht', hR'⟩ := exec_stuttering hstep hR has hrest
    have hsplit : (a :: as).filterMap event = (event a).toList ++ as.filterMap event := by
      cases hev : event a with
      | none => rw [List.filterMap_cons_none hev]; rfl
      | some ev => rw [List.filterMap_cons_some hev]; rfl
    rw [hsplit]
    exact ⟨t', exec_append.2 ⟨t₁, ht, ht'⟩, hR'⟩

end Runs

/-! ## Components over a shared state -/

/-- A shared state and the components at work on it. -/
structure Interleaving (β γ : Type) where
  shared : β
  parts : List γ

/-- Component `i` takes a step of its own on the shared state. -/
def Interleaving.step {ε : Type} (part : β → γ → ε → Option (β × γ)) (s : Interleaving β γ)
    (a : Nat × ε) : Option (Interleaving β γ) :=
  match s.parts[a.1]? with
  | none => none
  | some c => (part s.shared c a.2).map fun p => ⟨p.1, s.parts.set a.1 p.2⟩

theorem Interleaving.step_eq {ε : Type} {part : β → γ → ε → Option (β × γ)}
    {s s' : Interleaving β γ} {a : Nat × ε} (h : s.step part a = some s') :
    ∃ c b c', s.parts[a.1]? = some c ∧ part s.shared c a.2 = some (b, c') ∧
      s' = ⟨b, s.parts.set a.1 c'⟩ := by
  unfold Interleaving.step at h
  split at h
  · cases h
  · rename_i c hc
    obtain ⟨⟨b, c'⟩, hstep, rfl⟩ := Option.map_eq_some_iff.1 h
    exact ⟨c, b, c', hc, hstep, rfl⟩

/-- The step of the component that stands after `done`. -/
theorem Interleaving.step_at {ε : Type} {part : β → γ → ε → Option (β × γ)} {b b' : β} {c c' : γ}
    {ev : ε} (h : part b c ev = some (b', c')) (done rest : List γ) :
    (⟨b, done ++ c :: rest⟩ : Interleaving β γ).step part (done.length, ev) =
      some ⟨b', done ++ c' :: rest⟩ := by
  simp [Interleaving.step, h]

/-- The events of component `i`, in order. -/
def eventsOf {ε : Type} (i : Nat) (as : List (Nat × ε)) : List ε :=
  (as.filter fun a => a.1 == i).map Prod.snd

theorem eventsOf_concat_self {ε : Type} (i : Nat) (as : List (Nat × ε)) (ev : ε) :
    eventsOf i (as ++ [(i, ev)]) = eventsOf i as ++ [ev] := by
  simp [eventsOf, List.filter_append]

theorem eventsOf_concat_of_ne {ε : Type} {i : Nat} {a : Nat × ε} (h : a.1 ≠ i)
    (as : List (Nat × ε)) : eventsOf i (as ++ [a]) = eventsOf i as := by
  simp [eventsOf, List.filter_append, h]

/-- A component after one of the components was replaced. -/
theorem getElem?_set_cases {l : List γ} {i j : Nat} {x y : γ} (h : (l.set i x)[j]? = some y) :
    (j = i ∧ y = x) ∨ (j ≠ i ∧ l[j]? = some y) := by
  by_cases hij : j = i
  · subst hij
    obtain ⟨hj, hy⟩ := List.getElem?_eq_some_iff.1 h
    rw [List.getElem_set_self] at hy
    exact .inl ⟨rfl, hy.symm⟩
  · rw [List.getElem?_set_ne (Ne.symm hij)] at h
    exact .inr ⟨hij, h⟩

/-- The same for components by position. -/
theorem update_some_cases {f : Nat → Option γ} {i j : Nat} {x y : γ}
    (h : Function.update f i (some x) j = some y) : (j = i ∧ y = x) ∨ (j ≠ i ∧ f j = some y) := by
  by_cases hij : j = i
  · subst hij
    rw [Function.update_self] at h
    exact .inl ⟨rfl, (Option.some.inj h).symm⟩
  · rw [Function.update_of_ne hij] at h
    exact .inr ⟨hij, h⟩

/-- Replacing a component, by position. -/
theorem getElem?_set_update {l : List γ} {i : Nat} {x y : γ} (h : l[i]? = some x) :
    (fun k => (l.set i y)[k]?) = Function.update (fun k => l[k]?) i (some y) := by
  funext k
  by_cases hk : k = i
  · subst hk
    rw [Function.update_self, List.getElem?_set_self (List.getElem?_eq_some_iff.1 h).1]
  · rw [Function.update_of_ne hk, List.getElem?_set_ne (Ne.symm hk)]

/-- What replacing a component does to the number of those with a property. -/
theorem countP_set_add {l : List γ} {i : Nat} {x : γ} (h : l[i]? = some x) (y : γ) (p : γ → Bool) :
    (l.set i y).countP p + (if p x then 1 else 0) = l.countP p + (if p y then 1 else 0) := by
  obtain ⟨hlt, rfl⟩ := List.getElem?_eq_some_iff.1 h
  rw [List.countP_set hlt]
  by_cases hp : p l[i] = true
  · have hpos : 0 < l.countP p := List.countP_pos_iff.2 ⟨l[i], List.getElem_mem hlt, hp⟩
    simp only [hp, if_true]
    omega
  · rw [if_neg hp]
    omega

/-- The actions that serve a list of components one after the other; `acts i x` serves the one
    at index `i`. -/
def sweep {δ : Type} (acts : Nat → δ → List α) : Nat → List δ → List α
  | _, [] => []
  | i, x :: xs => acts i x ++ sweep acts (i + 1) xs

/-- **Sweep rule**: `mk b xs` is the state with shared part `b` and components `xs`.  If the
    actions for `x` turn the component `u x` into `v x` and the shared part into `f b x`, whatever
    stands before and after it, then a sweep does so for all of them. -/
theorem exec_sweep {step : σ → α → Option σ} {δ : Type} (mk : β → List γ → σ)
    (acts : Nat → δ → List α) (f : β → δ → β) (u v : δ → γ)
    (hone : ∀ b done x rest, exec step (mk b (done ++ u x :: rest)) (acts done.length x) =
      some (mk (f b x) (done ++ v x :: rest))) :
    ∀ (xs : List δ) (done : List γ) (b : β),
      exec step (mk b (done ++ xs.map u)) (sweep acts done.length xs) =
        some (mk (xs.foldl f b) (done ++ xs.map v))
  | [], done, b => by simp [sweep]
  | x :: xs, done, b => by
    have hrest := exec_sweep mk acts f u v hone xs (done ++ [v x]) (f b x)
    simp only [List.append_assoc, List.singleton_append, List.length_append,
      List.length_singleton] at hrest
    simp only [sweep, List.foldl_cons, List.map_cons]
    exact exec_append.2 ⟨_, hone b done x (xs.map u), hrest⟩

end Transition
