import Mathlib.Data.List.Induction

/-! Deterministic machines driven by an event list.  `Always P` says that `P` holds in
every state a run passes through, together with what an observer of single steps
has seen so far; `Meets C` says that every step the run takes meets `C`. -/

universe u v w x y

/-- `step s e` is undefined when the event `e` cannot happen in the state `s`. -/
structure Machine (σ : Type u) (ε : Type v) where
  step : σ → ε → Option σ

namespace Machine

variable {σ : Type u} {ε : Type v} {ω : Type w} (M : Machine σ ε)

def run : σ → List ε → Option σ
  | s, [] => some s
  | s, e :: es => (M.step s e).bind fun t => run t es

@[simp] theorem run_nil (s : σ) : M.run s [] = some s := rfl

theorem run_append (s : σ) (es fs : List ε) :
    M.run s (es ++ fs) = (M.run s es).bind fun t => M.run t fs := by
  induction es generalizing s with
  | nil => rfl
  | cons e es ih =>
    simp only [List.cons_append, run, Option.bind_assoc]
    congr 1
    funext t
    exact ih t

theorem run_snoc (s : σ) (es : List ε) (e : ε) (u : σ) :
    M.run s (es ++ [e]) = some u ↔ ∃ t, M.run s es = some t ∧ M.step t e = some u := by
  simp [run_append, run, Option.bind_eq_some_iff]

def log (obs : σ → ε → List ω) : σ → List ε → List ω
  | _, [] => []
  | s, e :: es => obs s e ++ (M.step s e).elim [] fun t => log obs t es

def unobserved : σ → ε → List Unit := fun _ _ => []

variable (obs : σ → ε → List ω)

@[simp] theorem log_nil (s : σ) : M.log obs s [] = [] := rfl

theorem log_append {s t : σ} (es fs : List ε) (h : M.run s es = some t) :
    M.log obs s (es ++ fs) = M.log obs s es ++ M.log obs t fs := by
  induction es generalizing s with
  | nil =>
    cases h
    rfl
  | cons e es ih =>
    simp only [run, Option.bind_eq_some_iff] at h
    obtain ⟨u, hu, h⟩ := h
    simp only [List.cons_append, log, hu, Option.elim_some, ih h, List.append_assoc]

theorem log_snoc {s t : σ} (es : List ε) (e : ε) (h : M.run s es = some t) :
    M.log obs s (es ++ [e]) = M.log obs s es ++ obs t e := by
  rw [M.log_append obs es [e] h]
  cases hu : M.step t e <;> simp [log, hu]

def Always (P : σ → List ω → Prop) (s : σ) (es : List ε) : Prop :=
  ∀ pre, pre <+: es → ∀ t, M.run s pre = some t → P t (M.log obs s pre)

def Meets (C : σ → List ω → ε → Prop) (s : σ) (es : List ε) : Prop :=
  ∀ pre e, pre ++ [e] <+: es → ∀ t u, M.run s pre = some t → M.step t e = some u →
    C t (M.log obs s pre) e

variable {M obs}

theorem Always.of_prefix {P : σ → List ω → Prop} {s : σ} {es fs : List ε}
    (h : M.Always obs P s fs) (hp : es <+: fs) : M.Always obs P s es :=
  fun pre hpre => h pre (hpre.trans hp)

theorem Meets.of_prefix {C : σ → List ω → ε → Prop} {s : σ} {es fs : List ε}
    (h : M.Meets obs C s fs) (hp : es <+: fs) : M.Meets obs C s es :=
  fun pre e hpre => h pre e (hpre.trans hp)

theorem Meets.last {C : σ → List ω → ε → Prop} {s t u : σ} {es : List ε} {e : ε}
    (h : M.Meets obs C s (es ++ [e])) (ht : M.run s es = some t) (hu : M.step t e = some u) :
    C t (M.log obs s es) e :=
  h es e (List.prefix_refl _) t u ht hu

theorem Meets.snoc {C : σ → List ω → ε → Prop} {s : σ} {es : List ε} {e : ε}
    (h : M.Meets obs C s es)
    (hlast : ∀ t u, M.run s es = some t → M.step t e = some u → C t (M.log obs s es) e) :
    M.Meets obs C s (es ++ [e]) := by
  intro pre f hpre t u ht hu
  rcases List.prefix_concat_iff.mp hpre with heq | hpre
  · obtain ⟨rfl, hf⟩ := List.append_inj' heq rfl
    cases hf
    exact hlast t u ht hu
  · exact h pre f hpre t u ht hu

theorem Meets.mem {C : σ → List ω → ε → Prop} {s : σ} {es : List ε} (h : M.Meets obs C s es) :
    M.Meets obs (fun t l e => C t l e ∧ e ∈ es) s es :=
  fun pre e hpre t u ht hu => ⟨h pre e hpre t u ht hu, hpre.subset (by simp)⟩

def checks (obs : σ → ε → List ω) (C : σ → List ω → ε → Bool) : σ → List ω → List ε → Bool
  | _, _, [] => true
  | s, l, e :: es =>
    (M.step s e).elim true fun t => C s l e && checks obs C t (l ++ obs s e) es

theorem meets_of_checks {C : σ → List ω → ε → Prop} [∀ t l e, Decidable (C t l e)] {s : σ}
    {es : List ε} (h : M.checks obs (fun t l e => decide (C t l e)) s [] es = true) :
    M.Meets obs C s es := by
  have gen : ∀ (es : List ε) (s : σ) (l : List ω),
      M.checks obs (fun t l e => decide (C t l e)) s l es = true →
      ∀ pre e, pre ++ [e] <+: es → ∀ t u, M.run s pre = some t → M.step t e = some u →
        C t (l ++ M.log obs s pre) e := by
    intro es
    induction es with
    | nil =>
      intro s l _ pre e hpre
      simp at hpre
    | cons f es ih =>
      intro s l h pre e hpre t u ht hu
      cases pre with
      | nil =>
        cases ht
        obtain ⟨rfl, -⟩ := List.cons_prefix_cons.mp hpre
        simp only [checks, hu, Option.elim_some, Bool.and_eq_true, decide_eq_true_eq] at h
        simpa using h.1
      | cons g pre =>
        obtain ⟨rfl, htail⟩ := List.cons_prefix_cons.mp hpre
        simp only [run, Option.bind_eq_some_iff] at ht
        obtain ⟨r, hr, ht⟩ := ht
        simp only [checks, hr, Option.elim_some, Bool.and_eq_true] at h
        simpa [log, hr] using ih r _ h.2 pre e htail t u ht hu
  intro pre e hpre t u ht hu
  simpa using gen es s [] h pre e hpre t u ht hu

/-- The invariant rule: what holds at the start and is kept by every step that
meets the condition holds at the end of every run whose steps all meet it. -/
theorem Meets.invariant {K : σ → List ω → Prop} {C : σ → List ω → ε → Prop} {s : σ}
    (hinit : K s [])
    (hstep : ∀ t l e u, K t l → C t l e → M.step t e = some u → K u (l ++ obs t e))
    {es : List ε} {t : σ} (hC : M.Meets obs C s es) (ht : M.run s es = some t) :
    K t (M.log obs s es) := by
  induction es using List.reverseRecOn generalizing t with
  | nil =>
    cases ht
    exact hinit
  | append_singleton es e ih =>
    obtain ⟨r, hr, hu⟩ := (M.run_snoc s es e t).mp ht
    rw [M.log_snoc obs es e hr]
    exact hstep r _ e t (ih (hC.of_prefix (List.prefix_append _ _)) hr) (hC.last hr hu) hu

theorem Meets.imp {K : σ → List ω → Prop} {C D : σ → List ω → ε → Prop} {s : σ} {es : List ε}
    (h : M.Meets obs C s es) (hinit : K s [])
    (hstep : ∀ t l e u, K t l → C t l e → M.step t e = some u → K u (l ++ obs t e))
    (himp : ∀ t l e u, K t l → C t l e → M.step t e = some u → D t l e) : M.Meets obs D s es := by
  intro pre e hpre t u ht hu
  have hK := (h.of_prefix ((List.prefix_append pre [e]).trans hpre)).invariant hinit hstep ht
  exact himp t _ e u hK (h pre e hpre t u ht hu) hu

theorem run_invariant {K : σ → List ω → Prop} {s : σ} (hinit : K s [])
    (hstep : ∀ t l e u, K t l → M.step t e = some u → K u (l ++ obs t e))
    {es : List ε} {t : σ} (ht : M.run s es = some t) : K t (M.log obs s es) :=
  Meets.invariant (C := fun _ _ _ => True) hinit (fun t l e u hK _ hu => hstep t l e u hK hu)
    (fun _ _ _ _ _ _ _ => trivial) ht

theorem Meets.simulation {α : Type x} {ι : Type y} {A : Machine α ι} {f : ι → ε}
    {R : σ → α → List ω → Prop} {C : σ → List ω → ε → Prop} {s : σ} {a : α} (hinit : R s a [])
    (hstep : ∀ t b l i u, R t b l → C t l (f i) → M.step t (f i) = some u →
      ∃ c, A.step b i = some c ∧ R u c (l ++ obs t (f i)))
    {is : List ι} {t : σ} (hC : M.Meets obs C s (is.map f)) (ht : M.run s (is.map f) = some t) :
    ∃ b, A.run a is = some b ∧ R t b (M.log obs s (is.map f)) := by
  induction is using List.reverseRecOn generalizing t with
  | nil =>
    cases ht
    exact ⟨a, rfl, hinit⟩
  | append_singleton is i ih =>
    simp only [List.map_append, List.map_cons, List.map_nil] at hC ht ⊢
    obtain ⟨r, hr, hu⟩ := (M.run_snoc s _ _ t).mp ht
    obtain ⟨b, hb, hR⟩ := ih (hC.of_prefix (List.prefix_append _ _)) hr
    obtain ⟨c, hc, hR'⟩ := hstep r b _ i t hR (hC.last hr hu) hu
    refine ⟨c, (A.run_snoc a is i c).mpr ⟨b, hb, hc⟩, ?_⟩
    rw [M.log_snoc obs _ _ hr]
    exact hR'

/-- When `C` is exactly what keeps a step from breaking `P`, the runs along which
`P` never fails are the runs whose steps all meet `C`. -/
theorem always_iff_meets {K P : σ → List ω → Prop} {C : σ → List ω → ε → Prop} {s : σ}
    (hinit : K s [])
    (hstep : ∀ t l e u, K t l → C t l e → M.step t e = some u → K u (l ++ obs t e))
    (hP : ∀ t l, K t l → P t l)
    (hbreak : ∀ t l e u, K t l → M.step t e = some u → P u (l ++ obs t e) → C t l e)
    (es : List ε) : M.Always obs P s es ↔ M.Meets obs C s es := by
  constructor
  · intro h
    induction es using List.reverseRecOn with
    | nil =>
      intro pre e hpre
      simp at hpre
    | append_singleton es e ih =>
      have hes := ih (h.of_prefix (List.prefix_append _ _))
      apply hes.snoc
      intro t u ht hu
      apply hbreak t _ e u (hes.invariant hinit hstep ht) hu
      rw [← M.log_snoc obs es e ht]
      exact h _ (List.prefix_refl _) u ((M.run_snoc s es e u).mpr ⟨t, ht, hu⟩)
  · intro h pre hpre t ht
    exact hP t _ ((h.of_prefix hpre).invariant hinit hstep ht)

end Machine
