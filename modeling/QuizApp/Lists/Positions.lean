import Mathlib.Data.List.Basic

universe u

namespace Positions

variable {α : Type u} {p : α → Bool} {l : List α} {i : Nat} {a b : α}

theorem findIdxs_set_of_eq (hi : l[i]? = some a) (hp : p b = p a) (s : Nat) :
    (l.set i b).findIdxs p s = l.findIdxs p s := by
  induction l generalizing i s with
  | nil => rfl
  | cons x l ih =>
    cases i with
    | zero =>
      cases hi
      simp [hp]
    | succ i => simp [ih hi]

theorem findIdxs_set_of_false (hi : l[i]? = some a) (ha : p a = true) (hb : p b = false) (s : Nat) :
    (l.set i b).findIdxs p s = (l.findIdxs p s).erase (i + s) := by
  induction l generalizing i s with
  | nil => simp at hi
  | cons x l ih =>
    cases i with
    | zero =>
      cases hi
      simp [ha, hb]
    | succ i =>
      have htail := ih hi (s + 1)
      have hshift : i + (s + 1) = i + 1 + s := by omega
      rw [hshift] at htail
      by_cases hx : p x = true <;> simp [hx, htail]

end Positions
