import QuizApp.Machine.Run

/-! Refinement between machines.  An event of the concrete machine stands for a list of
events of the abstract one, the empty list for a step the abstract machine does not see. -/

universe u v w x y

namespace Machine

variable {σ : Type u} {ε : Type v} {α : Type w} {ι : Type x}
  {M : Machine σ ε} {A : Machine α ι} {f : ε → List ι} {R : σ → α → Prop} {C : σ → ε → Prop}

def Along (M : Machine σ ε) (C : σ → ε → Prop) (s : σ) (es : List ε) : Prop :=
  M.Meets unobserved (fun t _ e => C t e) s es

theorem along_of_checks [∀ t e, Decidable (C t e)] {s : σ} {es : List ε}
    (h : M.checks unobserved (fun t _ e => decide (C t e)) s [] es = true) : M.Along C s es :=
  meets_of_checks h

theorem along_nil (M : Machine σ ε) (C : σ → ε → Prop) (s : σ) : M.Along C s [] := by
  intro pre e hpre
  simp at hpre

theorem along_cons {s t : σ} {e : ε} {es : List ε} (hstep : M.step s e = some t) :
    M.Along C s (e :: es) ↔ C s e ∧ M.Along C t es := by
  constructor
  · intro h
    refine ⟨h [] e (by simp) s t rfl hstep, ?_⟩
    intro pre g hpre r u hr hu
    exact h (e :: pre) g (by simpa using hpre) r u (by simp [run, hstep, hr]) hu
  · rintro ⟨he, hes⟩ pre g hpre r u hr hu
    cases pre with
    | nil =>
      cases hr
      obtain ⟨rfl, -⟩ := List.cons_prefix_cons.mp hpre
      exact he
    | cons e' pre =>
      obtain ⟨rfl, htail⟩ := List.cons_prefix_cons.mp hpre
      simp only [run, hstep, Option.bind_some] at hr
      exact hes pre g htail r u hr hu

theorem Along.cons {s : σ} {e : ε} {es : List ε} (he : C s e)
    (hes : ∀ t, M.step s e = some t → M.Along C t es) : M.Along C s (e :: es) := by
  cases hstep : M.step s e with
  | some t => exact (along_cons hstep).mpr ⟨he, hes t hstep⟩
  | none =>
    intro pre g hpre r u hr hu
    cases pre with
    | nil =>
      cases hr
      obtain ⟨rfl, -⟩ := List.cons_prefix_cons.mp hpre
      exact he
    | cons e' pre =>
      obtain ⟨rfl, -⟩ := List.cons_prefix_cons.mp hpre
      simp [run, hstep] at hr

theorem Along.append {s t : σ} {es fs : List ε} (hes : M.Along C s es) (hs : M.run s es = some t)
    (hfs : M.Along C t fs) : M.Along C s (es ++ fs) := by
  induction es generalizing s with
  | nil =>
    cases hs
    exact hfs
  | cons e es ih =>
    simp only [run, Option.bind_eq_some_iff] at hs
    obtain ⟨r, hr, hs⟩ := hs
    obtain ⟨he, hes⟩ := (along_cons hr).mp hes
    exact (along_cons hr).mpr ⟨he, ih hes hs⟩

theorem Along.of_forall {es : List ε} {s : σ} (h : ∀ e ∈ es, ∀ t, C t e) : M.Along C s es :=
  fun _ e hpre t _ _ _ => h e (hpre.subset (by simp)) t

theorem Along.of_keeps {K : σ → Prop} {s : σ} {es : List ε} (hinit : K s)
    (hstep : ∀ e ∈ es, ∀ t u, K t → M.step t e = some u → K u) (hC : ∀ t e, K t → C t e) (e : ε) :
    M.Along C s (es ++ [e]) := by
  induction es generalizing s with
  | nil => exact .cons (hC s e hinit) fun _ _ => along_nil M C _
  | cons f es ih =>
    refine .cons (hC s f hinit) fun t ht => ?_
    exact ih (hstep f List.mem_cons_self s t hinit ht) fun g hg => hstep g (List.mem_cons_of_mem f hg)

theorem log_eq_nil {ω : Type y} {obs : σ → ε → List ω} {es : List ε} (s : σ)
    (h : ∀ e ∈ es, ∀ t, obs t e = []) : M.log obs s es = [] := by
  induction es generalizing s with
  | nil => rfl
  | cons e es ih =>
    rw [log, h e List.mem_cons_self, List.nil_append]
    cases M.step s e with
    | none => rfl
    | some t => exact ih t fun e he => h e (List.mem_cons_of_mem _ he)

theorem Along.invariant {ω : Type y} {obs : σ → ε → List ω} {K : σ → List ω → Prop} {s t : σ}
    {es : List ε} (hC : M.Along C s es) (hinit : K s [])
    (hstep : ∀ t l e u, K t l → C t e → M.step t e = some u → K u (l ++ obs t e))
    (ht : M.run s es = some t) : K t (M.log obs s es) :=
  Meets.invariant (C := fun t _ e => C t e) hinit hstep hC ht

theorem Along.keeps {K : σ → Prop} {s t : σ} {es : List ε} (hC : M.Along C s es) (hinit : K s)
    (hstep : ∀ t e u, K t → C t e → M.step t e = some u → K u) (ht : M.run s es = some t) : K t :=
  Meets.invariant (K := fun t _ => K t) hinit (fun t _ e u => hstep t e u) hC ht

theorem run_induction {P : σ → List ε → Prop} {D : ε → Prop} {s : σ} (hinit : P s [])
    (hstep : ∀ es e t u, P t es → D e → M.run s es = some t → M.step t e = some u →
      P u (es ++ [e]))
    {es : List ε} {t : σ} (hD : ∀ e ∈ es, D e) (ht : M.run s es = some t) : P t es := by
  induction es using List.reverseRecOn generalizing t with
  | nil =>
    cases ht
    exact hinit
  | append_singleton es e ih =>
    obtain ⟨r, hr, hu⟩ := (M.run_snoc s es e t).mp ht
    have hr' := ih (fun f hf => hD f (List.mem_append_left _ hf)) hr
    exact hstep es e r t hr' (hD e (by simp)) hr hu

/-- The simulation rule: a run whose steps all meet `C` refines the run of the abstract
machine on what its events stand for. -/
theorem Along.refines
    (hstep : ∀ s a e t, R s a → C s e → M.step s e = some t → ∃ b, A.run a (f e) = some b ∧ R t b)
    {s t : σ} {a : α} {es : List ε} (hinit : R s a) (hC : M.Along C s es)
    (hrun : M.run s es = some t) : ∃ b, A.run a (es.flatMap f) = some b ∧ R t b := by
  induction es generalizing s a with
  | nil =>
    cases hrun
    exact ⟨a, rfl, hinit⟩
  | cons e es ih =>
    simp only [run, Option.bind_eq_some_iff] at hrun
    obtain ⟨r, hr, hrun⟩ := hrun
    obtain ⟨he, hes⟩ := (along_cons hr).mp hC
    obtain ⟨b, hb, hR⟩ := hstep s a e r hinit he hr
    obtain ⟨c, hc, hR⟩ := ih hR hes hrun
    exact ⟨c, by simp [run_append, hb, hc], hR⟩

/-- The converse: where every abstract step is answered by a run that meets `C`, so is
every abstract run. -/
theorem exists_run_of_realises
    (hstep : ∀ s a i b, R s a → A.step a i = some b →
      ∃ es t, M.run s es = some t ∧ M.Along C s es ∧ es.flatMap f = [i] ∧ R t b)
    {s : σ} {a b : α} {is : List ι} (hinit : R s a) (hrun : A.run a is = some b) :
    ∃ es t, M.run s es = some t ∧ M.Along C s es ∧ es.flatMap f = is ∧ R t b := by
  induction is generalizing s a with
  | nil =>
    cases hrun
    exact ⟨[], s, rfl, along_nil M C s, rfl, hinit⟩
  | cons i is ih =>
    simp only [run, Option.bind_eq_some_iff] at hrun
    obtain ⟨c, hc, hrun⟩ := hrun
    obtain ⟨es, t, hes, hC, hf, hR⟩ := hstep s a i c hinit hc
    obtain ⟨fs, u, hfs, hC', hf', hR⟩ := ih hR hrun
    refine ⟨es ++ fs, u, ?_, hC.append hes hC', by simp [hf, hf'], hR⟩
    simp [run_append, hes, hfs]

end Machine
