import Mathlib.Order.Monotone.Defs
import Mathlib.Order.Nat

/-! A store of several keys into which versions are written one after the other, each of
them key by key in order and perhaps never to its end.  Such a store is made of layers: no
key holds a newer version than a key before it. -/

universe u v

variable {ι : Type u} {α : Type v}

/-- `stage i` is the number of the version whose value the key `i` holds. -/
structure Layered [PartialOrder ι] (versions : List (ι → α)) (store : ι → α) (stage : ι → Nat) :
    Prop where
  antitone : Antitone stage
  version : ∀ i, ∃ v, versions[stage i]? = some v ∧ v i = store i

namespace Layered

variable [PartialOrder ι] {versions : List (ι → α)} {store : ι → α} {stage : ι → Nat}

theorem first (store : ι → α) : Layered [store] store fun _ => 0 where
  antitone _ _ _ := Nat.le_refl 0
  version _ := ⟨store, rfl, rfl⟩

theorem append (h : Layered versions store stage) (v : ι → α) :
    Layered (versions ++ [v]) store stage where
  antitone := h.antitone
  version i := by
    obtain ⟨w, hw, hi⟩ := h.version i
    obtain ⟨hlt, -⟩ := List.getElem?_eq_some_iff.mp hw
    exact ⟨w, by rw [List.getElem?_append_left hlt, hw], hi⟩

theorem lt (h : Layered versions store stage) (i : ι) : stage i < versions.length := by
  obtain ⟨w, hw, -⟩ := h.version i
  exact (List.getElem?_eq_some_iff.mp hw).1

theorem write [DecidableEq ι] (h : Layered versions store stage) {n : Nat} {v : ι → α} {i : ι}
    (hn : versions.length = n + 1) (hv : versions[n]? = some v) (hbefore : ∀ j < i, stage j = n) :
    Layered versions (Function.update store i (v i)) (Function.update stage i n) where
  antitone j k hjk := by
    by_cases hk : k = i
    · subst hk
      by_cases hj : j = k
      · rw [hj]
      · rw [Function.update_self, Function.update_of_ne hj, hbefore j (lt_of_le_of_ne hjk hj)]
    · have hle : stage k ≤ n := by
        have hlt := h.lt k
        rw [hn] at hlt
        exact Nat.le_of_lt_succ hlt
      by_cases hj : j = i
      · subst hj
        rwa [Function.update_self, Function.update_of_ne hk]
      · rw [Function.update_of_ne hk, Function.update_of_ne hj]
        exact h.antitone hjk
  version j := by
    by_cases hj : j = i
    · subst hj
      exact ⟨v, by rw [Function.update_self, hv], by rw [Function.update_self]⟩
    · rw [Function.update_of_ne hj, Function.update_of_ne hj]
      exact h.version j

theorem below {v : ι → α} (h : Layered (versions ++ [v]) store stage) (hne : 0 < versions.length) :
    ∃ store', Layered versions store' (fun i => min (stage i) (versions.length - 1)) ∧
      ∀ i, (stage i = versions.length ∧ store i = v i) ∨
        (stage i < versions.length ∧ store i = store' i) := by
  have hlt : ∀ i, min (stage i) (versions.length - 1) < versions.length := by
    intro i
    omega
  refine ⟨fun i => versions.get ⟨_, hlt i⟩ i, ⟨?_, ?_⟩, ?_⟩
  · intro i j hij
    have := h.antitone hij
    simp only
    omega
  · intro i
    exact ⟨_, List.getElem?_eq_getElem (hlt i), rfl⟩
  · intro i
    obtain ⟨w, hw, hi⟩ := h.version i
    rcases Nat.lt_or_ge (stage i) versions.length with hold | hnew
    · rw [List.getElem?_append_left hold, List.getElem?_eq_getElem hold, Option.some.injEq] at hw
      have hmin : min (stage i) (versions.length - 1) = stage i := by omega
      refine .inr ⟨hold, ?_⟩
      simp only [List.get_eq_getElem, hmin, hw, hi]
    · have hstage : stage i = versions.length := by
        have := h.lt i
        rw [List.length_append, List.length_singleton] at this
        omega
      rw [hstage, List.getElem?_concat_length, Option.some.injEq] at hw
      exact .inl ⟨hstage, by rw [hw, hi]⟩

end Layered
