import Mathlib.Data.List.Nodup
import RBackup2.Lib.Transition

/-!
# Components that keep out of each other's way

Components over a shared state, each with a key of its own.  A component sees the part of the
shared state that is under its key, and no other component writes there.

* `Isolated` — what the steps of the components have to satisfy;
* `Isolated.exec_solo` — then a component takes the run it would take alone, on its own part of
  the shared state, with its own events.
-/

set_option autoImplicit false

namespace Transition

variable {β γ δ ε κ : Type}

/-- `view k` is the part of the shared state under the key `k`, and `solo` is the step of a
    component that has this part only; `inv` is an invariant of the components. -/
structure Isolated (part : β → γ → ε → Option (β × γ)) (key : γ → κ) (view : κ → β → δ)
    (solo : δ → γ → ε → Option (δ × γ)) (inv : β → γ → Prop) : Prop where
  key_eq : ∀ {b c ev b' c'}, part b c ev = some (b', c') → key c' = key c
  /-- A step does to the part under its key what the step alone does to it. -/
  own : ∀ {b c ev b' c'}, inv b c → part b c ev = some (b', c') →
    solo (view (key c) b) c ev = some (view (key c) b', c')
  /-- It leaves the other parts alone. -/
  other : ∀ {b c ev b' c'}, inv b c → part b c ev = some (b', c') →
    ∀ k, k ≠ key c → view k b' = view k b
  inv_own : ∀ {b c ev b' c'}, inv b c → part b c ev = some (b', c') → inv b' c'
  inv_other : ∀ {b c ev b' c' d}, inv b c → inv b d → key d ≠ key c →
    part b c ev = some (b', c') → inv b' d

namespace Isolated

variable {part : β → γ → ε → Option (β × γ)} {key : γ → κ} {view : κ → β → δ}
  {solo : δ → γ → ε → Option (δ × γ)} {inv : β → γ → Prop}

/-- Components at different positions have different keys. -/
theorem key_ne {l : List γ} (hkeys : (l.map key).Nodup) {i j : Nat} {c d : γ} (hi : l[i]? = some c)
    (hj : l[j]? = some d) (hij : i ≠ j) : key c ≠ key d := by
  intro he
  have hi' : (l.map key)[i]? = some (key c) := by rw [List.getElem?_map, hi, Option.map_some]
  have hj' : (l.map key)[j]? = some (key c) := by rw [List.getElem?_map, hj, Option.map_some, he]
  have hlt : i < (l.map key).length := (List.getElem?_eq_some_iff.1 hi').1
  exact hij ((List.getElem?_inj hlt hkeys).1 (hi'.trans hj'.symm))

/-- A step keeps the keys and the invariant of all components. -/
theorem step_all (h : Isolated part key view solo inv) {s s' : Interleaving β γ} {a : Nat × ε}
    (hkeys : (s.parts.map key).Nodup) (hinv : ∀ c ∈ s.parts, inv s.shared c)
    (hstep : s.step part a = some s') :
    s'.parts.map key = s.parts.map key ∧ ∀ c ∈ s'.parts, inv s'.shared c := by
  obtain ⟨c, b, c', hi, hc, rfl⟩ := Interleaving.step_eq hstep
  have hmem := List.mem_of_getElem? hi
  constructor
  · obtain ⟨hlt, rfl⟩ := List.getElem?_eq_some_iff.1 hi
    have hlt' : a.1 < (s.parts.map key).length := by simpa using hlt
    have hget : key s.parts[a.1] = (s.parts.map key)[a.1] := (List.getElem_map key).symm
    rw [List.map_set, h.key_eq hc, hget, List.set_getElem_self]
  · intro d hd
    obtain ⟨j, hj⟩ := List.mem_iff_getElem?.1 hd
    rcases getElem?_set_cases hj with ⟨-, rfl⟩ | ⟨hne, hj⟩
    · exact h.inv_own (hinv c hmem) hc
    · exact h.inv_other (hinv c hmem) (hinv d (List.mem_of_getElem? hj)) (key_ne hkeys hj hi hne) hc

/-- **Every component runs as it would alone**: whatever the others do in between, it and its part
    of the shared state are those of the run of its own events. -/
theorem exec_solo (h : Isolated part key view solo inv) :
    ∀ {as : List (Nat × ε)} {s s' : Interleaving β γ}, (s.parts.map key).Nodup →
      (∀ c ∈ s.parts, inv s.shared c) → exec (Interleaving.step part) s as = some s' →
      ∀ {i : Nat} {c : γ}, s.parts[i]? = some c →
        ∃ c', s'.parts[i]? = some c' ∧
          exec (fun (p : δ × γ) ev => solo p.1 p.2 ev) (view (key c) s.shared, c)
            (eventsOf i as) = some (view (key c) s'.shared, c')
  | [], s, s', _, _, he, i, c, hi => by
    cases he
    exact ⟨c, hi, rfl⟩
  | a :: as, s, s', hkeys, hinv, he, i, c, hi => by
    obtain ⟨m, hm, hrest⟩ := exec_cons.1 he
    obtain ⟨hkeys', hinv'⟩ := h.step_all hkeys hinv hm
    have ih : ∀ {c : γ}, m.parts[i]? = some c → ∃ c', s'.parts[i]? = some c' ∧
        exec (fun (p : δ × γ) ev => solo p.1 p.2 ev) (view (key c) m.shared, c)
          (eventsOf i as) = some (view (key c) s'.shared, c') :=
      h.exec_solo (hkeys'.symm ▸ hkeys) hinv' hrest
    obtain ⟨x, b, x', hx, hpart, rfl⟩ := Interleaving.step_eq hm
    have hxinv := hinv x (List.mem_of_getElem? hx)
    by_cases hai : a.1 = i
    · -- a step of the component itself
      subst hai
      cases hx.symm.trans hi
      have hself : (s.parts.set a.1 x')[a.1]? = some x' :=
        List.getElem?_set_self (List.getElem?_eq_some_iff.1 hi).1
      obtain ⟨c', hc', hsolo⟩ := ih hself
      rw [h.key_eq hpart] at hsolo
      have hevents : eventsOf a.1 (a :: as) = a.2 :: eventsOf a.1 as := by simp [eventsOf]
      refine ⟨c', hc', ?_⟩
      rw [hevents]
      exact exec_cons.2 ⟨_, h.own hxinv hpart, hsolo⟩
    · -- a step of another one
      have hkeep : (s.parts.set a.1 x')[i]? = some c := by rw [List.getElem?_set_ne hai, hi]
      obtain ⟨c', hc', hsolo⟩ := ih hkeep
      have hview : view (key c) b = view (key c) s.shared :=
        h.other hxinv hpart (key c) (key_ne hkeys hi hx (Ne.symm hai))
      have hevents : eventsOf i (a :: as) = eventsOf i as := by simp [eventsOf, hai]
      refine ⟨c', hc', ?_⟩
      rw [hevents, ← hview]
      exact hsolo

end Isolated

end Transition
