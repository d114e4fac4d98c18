import QuizApp.Machine.Run

universe u v w

namespace Machine

def total {α : Type u} (μ : α → Nat) : List α → Nat
  | [] => 0
  | a :: l => μ a + total μ l

section Total

variable {α : Type u} {μ : α → Nat} {l : List α}

@[simp] theorem total_nil (μ : α → Nat) : total μ [] = 0 := rfl

@[simp] theorem total_cons (μ : α → Nat) (a : α) (l : List α) :
    total μ (a :: l) = μ a + total μ l := rfl

@[simp] theorem total_append (μ : α → Nat) (l m : List α) :
    total μ (l ++ m) = total μ l + total μ m := by
  induction l with
  | nil => simp
  | cons a l ih => simp [ih, Nat.add_assoc]

theorem total_toNat (p : α → Bool) (l : List α) : total (fun a => (p a).toNat) l = l.countP p := by
  induction l with
  | nil => rfl
  | cons a l ih => cases h : p a <;> simp [h, ih, Nat.add_comm]

theorem total_set {i : Nat} {a : α} (h : l[i]? = some a) (b : α) :
    total μ (l.set i b) + μ a = total μ l + μ b := by
  induction l generalizing i with
  | nil => cases h
  | cons x l ih =>
    cases i with
    | zero =>
      cases h
      simp only [List.set_cons_zero, total_cons]
      omega
    | succ i =>
      have := ih (i := i) (by simpa using h)
      simp only [List.set_cons_succ, total_cons]
      omega

theorem total_eraseIdx {i : Nat} {a : α} (h : l[i]? = some a) :
    total μ (l.eraseIdx i) + μ a = total μ l := by
  induction l generalizing i with
  | nil => cases h
  | cons x l ih =>
    cases i with
    | zero =>
      cases h
      simp only [List.eraseIdx_cons_zero, total_cons]
      omega
    | succ i =>
      have := ih (i := i) (by simpa using h)
      simp only [List.eraseIdx_cons_succ, total_cons]
      omega

end Total

variable {σ : Type v} {ε : Type w} {M : Machine σ ε}

/-- The potential rule: a step whose cost `c` is paid by its own budget `b` and by what it
takes from the potential leaves runs whose cost is bounded by their budgets. -/
theorem total_cost_le {c b : ε → Nat} {μ : σ → Nat}
    (hstep : ∀ s e t, M.step s e = some t → c e + μ t ≤ b e + μ s)
    {es : List ε} {s t : σ} (hrun : M.run s es = some t) :
    total c es + μ t ≤ total b es + μ s := by
  induction es generalizing s with
  | nil =>
    cases hrun
    simp
  | cons e es ih =>
    simp only [run, Option.bind_eq_some_iff] at hrun
    obtain ⟨r, hr, hrun⟩ := hrun
    have := hstep s e r hr
    have := ih hrun
    simp only [total_cons]
    omega

theorem length_add_le {μ : σ → Nat} {E : ε → Prop}
    (hdec : ∀ s e t, E e → M.step s e = some t → μ t < μ s)
    {es : List ε} (hes : ∀ e ∈ es, E e) {s t : σ} (hrun : M.run s es = some t) :
    es.length + μ t ≤ μ s := by
  induction es generalizing s with
  | nil =>
    cases hrun
    simp
  | cons e es ih =>
    simp only [run, Option.bind_eq_some_iff] at hrun
    obtain ⟨r, hr, hrun⟩ := hrun
    have := hdec s e r (hes e List.mem_cons_self) hr
    have := ih (fun f hf => hes f (List.mem_cons_of_mem e hf)) hrun
    simp only [List.length_cons]
    omega

theorem exists_run_of_decreases {μ : σ → Nat} {E : ε → Prop} {P : σ → Prop}
    (hdec : ∀ s e t, E e → M.step s e = some t → μ t < μ s)
    (hprogress : ∀ s, ¬ P s → ∃ e, E e ∧ (M.step s e).isSome) (s : σ) :
    ∃ es t, (∀ e ∈ es, E e) ∧ M.run s es = some t ∧ P t := by
  induction hn : μ s using Nat.strongRecOn generalizing s with
  | ind n ih =>
    by_cases hP : P s
    · exact ⟨[], s, by simp, rfl, hP⟩
    · obtain ⟨e, he, hsome⟩ := hprogress s hP
      obtain ⟨t, ht⟩ := Option.isSome_iff_exists.mp hsome
      obtain ⟨es, u, hes, hrun, hu⟩ := ih (μ t) (hn ▸ hdec s e t he ht) t rfl
      exact ⟨e :: es, u, by simpa [he] using hes, by simpa [run, ht] using hrun, hu⟩

end Machine
