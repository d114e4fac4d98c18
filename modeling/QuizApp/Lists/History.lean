import Mathlib.Data.List.Basic

universe u v

namespace History

variable {α : Type u} {β : Type v}

/-- `P` was met at some element, and `Q` at every one since; both also see the elements
before the one they are about. -/
def Since (P Q : List α → α → Prop) (l : List α) : Prop :=
  ∃ before x after, l = before ++ x :: after ∧ P before x ∧
    ∀ m y n, after = m ++ y :: n → Q (before ++ x :: m) y

def last (f : α → Option β) (l : List α) : Option β := l.reverse.findSome? f

@[simp] theorem last_nil (f : α → Option β) : last f [] = none := rfl

@[simp] theorem last_snoc (f : α → Option β) (l : List α) (x : α) :
    last f (l ++ [x]) = (f x).or (last f l) := by
  rw [last, List.reverse_append, List.reverse_singleton, List.singleton_append,
    List.findSome?_cons]
  cases f x <;> rfl

theorem append_singleton_eq {l before after : List α} {x y : α}
    (h : l ++ [x] = before ++ y :: after) :
    (after = [] ∧ l = before ∧ x = y) ∨ ∃ m, after = m ++ [x] ∧ l = before ++ y :: m := by
  rcases List.eq_nil_or_concat' after with rfl | ⟨m, z, rfl⟩
  · obtain ⟨hl, hx⟩ := List.append_inj' h rfl
    exact .inl ⟨rfl, hl, List.singleton_inj.mp hx⟩
  · rw [← List.cons_append, ← List.append_assoc] at h
    obtain ⟨hl, hx⟩ := List.append_inj' h rfl
    rw [List.singleton_inj] at hx
    exact .inr ⟨m, by rw [hx], hl⟩

variable {P Q : List α → α → Prop}

@[simp] theorem since_nil : ¬ Since P Q [] := by
  rintro ⟨before, x, after, h, -⟩
  simp at h

theorem since_snoc (l : List α) (x : α) :
    Since P Q (l ++ [x]) ↔ P l x ∨ (Since P Q l ∧ Q l x) := by
  constructor
  · rintro ⟨before, y, after, heq, hp, hq⟩
    rcases append_singleton_eq heq with ⟨-, rfl, rfl⟩ | ⟨m, rfl, rfl⟩
    · exact .inl hp
    · refine .inr ⟨⟨before, y, m, rfl, hp, ?_⟩, hq m x [] rfl⟩
      rintro m' z n rfl
      exact hq m' z (n ++ [x]) (by simp)
  · rintro (hp | ⟨⟨before, y, after, rfl, hp, hq⟩, hx⟩)
    · exact ⟨l, x, [], rfl, hp, by simp⟩
    · refine ⟨before, y, after ++ [x], by simp, hp, ?_⟩
      intro m z n heq
      rcases append_singleton_eq heq with ⟨-, rfl, rfl⟩ | ⟨k, rfl, rfl⟩
      · exact hx
      · exact hq m z k rfl

end History
