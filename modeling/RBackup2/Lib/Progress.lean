import Mathlib
import RBackup2.Lib.Transition

/-!
# Ranked transition systems

Some actions of a system are its own work; the others bring work in.  A rank that pays for every
action of the first kind, and grows by no more than a load with one of the second, counts the
work that is left.

* `Ranked` — a rank under an invariant, with the work and the load of the actions;
* `Ranked.work_le` — how much work a run does: the rank it starts from and what it was loaded
  with, less the rank it ends in;
* `Ranked.exec_idle` — if some work can be done in every state that is not idle, every state has
  a run of work to an idle one, and all of them are that short.
-/

set_option autoImplicit false

namespace Transition

variable {σ α β : Type}

/-- A rank of the states with `I`: every action changes it by its load at most, and work takes at
    least one off. -/
structure Ranked (step : σ → α → Option σ) (I : σ → Prop) (work : α → Bool) (load : α → Nat)
    (rank : σ → Nat) : Prop where
  keeps : ∀ s a s', I s → step s a = some s' → I s'
  pays : ∀ s a s', I s → step s a = some s' →
    rank s' + (if work a then 1 else 0) ≤ rank s + load a

namespace Ranked

variable {step : σ → α → Option σ} {I : σ → Prop} {work : α → Bool} {load : α → Nat}
  {rank : σ → Nat}

/-- **The work of a run**: what is left after it and what was done in it is no more than what was
    there before and what came in. -/
theorem work_le (h : Ranked step I work load rank) :
    ∀ {as : List α} {s t : σ}, I s → exec step s as = some t →
      rank t + as.countP work ≤ rank s + (as.map load).sum
  | [], s, t, _, he => by
    cases he
    simp
  | a :: as, s, t, hs, he => by
    obtain ⟨s', ha, hrest⟩ := exec_cons.1 he
    have hone := h.pays s a s' hs ha
    have hmore := h.work_le (h.keeps s a s' hs ha) hrest
    rw [List.countP_cons, List.map_cons, List.sum_cons]
    omega

/-- A run of nothing but work that brings nothing in is no longer than the rank it starts from. -/
theorem length_le (h : Ranked step I work load rank) {as : List α} {s t : σ} (hs : I s)
    (hwork : ∀ a ∈ as, work a = true ∧ load a = 0) (he : exec step s as = some t) :
    rank t + as.length ≤ rank s := by
  have hle := h.work_le hs he
  have hcount : as.countP work = as.length := List.countP_eq_length.2 fun a ha => (hwork a ha).1
  have hload : (as.map load).sum = 0 := by
    refine List.sum_eq_zero fun n hn => ?_
    obtain ⟨a, ha, rfl⟩ := List.mem_map.1 hn
    exact (hwork a ha).2
  omega

/-- **Progress rule**: if in every state that is not idle there is work to do, a run of work leads
    from every state to an idle one. -/
theorem exec_idle (h : Ranked step I work load rank) (idle : σ → Prop)
    (hprogress : ∀ s, I s → ¬ idle s →
      ∃ a s', work a = true ∧ load a = 0 ∧ step s a = some s') :
    ∀ {s : σ}, I s → ∃ as t, (∀ a ∈ as, work a = true ∧ load a = 0) ∧
      exec step s as = some t ∧ idle t := by
  intro s
  generalize hn : rank s = n
  induction n using Nat.strongRecOn generalizing s with
  | _ n ih =>
    intro hs
    by_cases hidle : idle s
    · exact ⟨[], s, fun _ ha => absurd ha List.not_mem_nil, rfl, hidle⟩
    · obtain ⟨a, s', hwork, hload, ha⟩ := hprogress s hs hidle
      have hpays := h.pays s a s' hs ha
      rw [hwork, if_pos rfl, hload] at hpays
      obtain ⟨as, t, hall, ht, hlast⟩ :=
        ih (rank s') (by omega) rfl (h.keeps s a s' hs ha)
      refine ⟨a :: as, t, ?_, exec_cons.2 ⟨s', ha, ht⟩, hlast⟩
      rw [List.forall_mem_cons]
      exact ⟨⟨hwork, hload⟩, hall⟩

end Ranked

/-- What replacing a component does to a sum over the components. -/
theorem sum_map_set {l : List β} {i : Nat} {x : β} (h : l[i]? = some x) (y : β) (f : β → Nat) :
    ((l.set i y).map f).sum + f x = (l.map f).sum + f y := by
  induction l generalizing i with
  | nil => cases h
  | cons z l ih =>
    cases i with
    | zero =>
      cases h
      simp only [List.set_cons_zero, List.map_cons, List.sum_cons]
      omega
    | succ i =>
      have hrest := ih h
      simp only [List.set_cons_succ, List.map_cons, List.sum_cons]
      omega

end Transition
