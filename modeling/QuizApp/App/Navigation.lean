import QuizApp.App.Score

namespace QuizApp.App

open Js
open Home (ann typeEvents)

def Instance.isQuiz : Instance → Bool
  | .home _ => false
  | .quiz _ => true

def System.currentQuiz (app : System) : Option Nat :=
  if app.instances[app.current]?.any Instance.isQuiz then some app.current else none

def AcceptedLogin (app : System) (e : Event) : Prop :=
  ∃ id h, e = .home id .login ∧ app.instances[id]? = some (.home h) ∧
    Home.validate h.state = .ok (true, h.state)

def Outstanding (app : System) (id : Nat) : Prop :=
  ∃ q, app.instances[id]? = some (.quiz q) ∧ q.writes ≠ []

def Submits (app : System) (e : Event) (id : Nat) : Prop :=
  e = .quiz id (.input .press) ∧
    ∃ q, app.instances[id]? = some (.quiz q) ∧ q.state.currentQuestion = q.state.questionCount

def submissions (app : System) : Event → List Nat
  | .quiz id (.input .press) =>
    match app.instances[id]? with
    | some (.quiz q) => if q.state.currentQuestion = q.state.questionCount then [id] else []
    | _ => []
  | _ => []

/-- A quiz is entered by an accepted login and left by the continuation of a write of
its own, which one of its submit presses has started. -/
structure Orderly (customData : Quiz.CustomData) (app : System) (submitted : List Nat) (e : Event) :
    Prop where
  entered : ∀ app' id, step customData app e = some app' → app'.currentQuiz = some id →
    app.currentQuiz ≠ some id → AcceptedLogin app e
  left : ∀ app' id, step customData app e = some app' → app.currentQuiz = some id →
    app'.currentQuiz ≠ some id → (∃ i, e = .quiz id (.resume i)) ∧ id ∈ submitted

/-- While a quiz is current, no login is accepted and no continuation runs but its own. -/
structure Undisturbed (app : System) (_ : List Nat) (e : Event) : Prop where
  login : AcceptedLogin app e → app.currentQuiz = none
  resume : ∀ id i, e = .quiz id (.resume i) → app.currentQuiz = none ∨ app.currentQuiz = some id

/-- A login is accepted only with a `HomeScreen` current and no write outstanding, and
a quiz that has been replaced is not submitted while another one is current. -/
structure OneAtATime (app : System) (_ : List Nat) (e : Event) : Prop where
  login : AcceptedLogin app e → app.currentQuiz = none ∧ ∀ id, ¬ Outstanding app id
  submit : ∀ id, Submits app e id → app.currentQuiz = none ∨ app.currentQuiz = some id

theorem mem_submissions {app : System} {e : Event} {id : Nat} :
    id ∈ submissions app e ↔ Submits app e id := by
  constructor
  · intro h
    unfold submissions at h
    split at h
    · split at h
      · rename_i q hq
        split at h
        · rename_i hlast
          cases List.mem_singleton.mp h
          exact ⟨rfl, q, hq, hlast⟩
        · cases h
      · cases h
    · cases h
  · rintro ⟨rfl, q, hq, hlast⟩
    simp [submissions, hq, hlast]

theorem currentQuiz_put {app : System} {id : Nat} {i j : Instance}
    (hid : app.instances[id]? = some j) (hkind : i.isQuiz = j.isQuiz) :
    (app.put id i).currentQuiz = app.currentQuiz := by
  have hany : (app.put id i).instances[app.current]?.any Instance.isQuiz =
      app.instances[app.current]?.any Instance.isQuiz := by
    by_cases hcurrent : app.current = id
    · subst hcurrent
      simp [System.put_self hid, hid, hkind]
    · rw [System.put_of_ne app _ hcurrent]
  change (if (app.put id i).instances[app.current]?.any Instance.isQuiz then _ else _) = _
  rw [hany]
  rfl

@[simp] theorem currentQuiz_push_home (app : System) (h : Home.Instance) :
    (app.push (.home h)).currentQuiz = none := by
  simp [System.currentQuiz, Instance.isQuiz]

@[simp] theorem currentQuiz_push_quiz (app : System) (q : Quiz.Instance) :
    (app.push (.quiz q)).currentQuiz = some app.instances.length := by
  simp [System.currentQuiz, System.push, Instance.isQuiz]

theorem lt_of_currentQuiz {app : System} {id : Nat} (h : app.currentQuiz = some id) :
    id < app.instances.length := by
  simp only [System.currentQuiz] at h
  split at h
  · rename_i hany
    cases h
    obtain ⟨i, hi, -⟩ := (Option.any_eq_true _ _).mp hany
    exact (List.getElem?_eq_some_iff.mp hi).1
  · cases h

theorem AcceptedLogin.eq {app : System} {e : Event} (h : AcceptedLogin app e) :
    ∃ id, e = .home id .login := by
  obtain ⟨id, _, he, _⟩ := h
  exact ⟨id, he⟩

theorem not_acceptedLogin_of_ne {app : System} {e : Event} (he : ∀ id, e ≠ .home id .login) :
    ¬ AcceptedLogin app e := by
  intro h
  obtain ⟨id, heq⟩ := h.eq
  exact he id heq

theorem not_acceptedLogin {app : System} {id : Nat} {h r : Home.Instance} {e : Home.Event}
    {fx : List Effect} (hid : app.instances[id]? = some (.home h)) (hr : Home.Reacts h e r fx)
    (hfx : .replace .quizScreen ∉ fx) : ¬ AcceptedLogin app (.home id e) := by
  rintro ⟨id', h', he, hid', hvalid⟩
  cases he
  cases hid.symm.trans hid'
  cases hr with
  | rejected _ hf hfault =>
    rw [Home.validate_of_faulty hf hfault] at hvalid
    cases hvalid
  | accepted => simp at hfx

theorem acceptedLogin_of_reacts {app : System} {id : Nat} {h r : Home.Instance}
    (hid : app.instances[id]? = some (.home h))
    (hr : Home.Reacts h .login r [.replace .quizScreen]) : AcceptedLogin app (.home id .login) := by
  cases hr with
  | accepted _ hvalid => exact ⟨id, h, rfl, hid, Home.validate_of_valid hvalid⟩

inductive Turns (app : System) (e : Event) (app' : System) : Prop
  | stay : app'.currentQuiz = app.currentQuiz → ¬ AcceptedLogin app e →
      (∀ id i, e ≠ .quiz id (.resume i)) → Turns app e app'
  | enter : AcceptedLogin app e → app'.currentQuiz = some app.instances.length → Turns app e app'
  | leave {id i : Nat} : e = .quiz id (.resume i) → Outstanding app id → app'.currentQuiz = none →
      Turns app e app'

theorem turns_of_steps {customData : Quiz.CustomData} {app app' : System} {e : Event}
    (hst : Steps customData app e app') (hkill : e ≠ .kill) : Turns app e app' := by
  cases hst with
  | home hid _ _ hr hfx =>
    refine .stay (currentQuiz_put hid rfl) (not_acceptedLogin hid hr ?_) (by simp)
    intro hmem
    obtain ⟨error, hx⟩ := hfx _ hmem
    cases hx
  | storeItem hid =>
    exact .stay (currentQuiz_put hid rfl) (not_acceptedLogin_of_ne (by simp)) (by simp)
  | login hid hr =>
    refine .enter (acceptedLogin_of_reacts hid hr) ?_
    exact (currentQuiz_push_quiz _ _).trans (by simp [System.put])
  | quiz hid hr hfx =>
    refine .stay (currentQuiz_put hid rfl) (not_acceptedLogin_of_ne (by simp)) ?_
    intro id i he
    exact ne_resume_of_reacts hr hfx i (Event.quiz.inj he).2
  | storeFile hid =>
    exact .stay (currentQuiz_put hid rfl) (not_acceptedLogin_of_ne (by simp)) (by simp)
  | @leave id i q r fx hid hr =>
    refine .leave rfl ⟨q, hid, ?_⟩ (currentQuiz_push_home _ _)
    cases hr with
    | resume hi =>
      intro hnil
      simp [hnil] at hi
  | unmount hid =>
    exact .stay (currentQuiz_put hid rfl) (not_acceptedLogin_of_ne (by simp)) (by simp)
  | back => exact .stay rfl (not_acceptedLogin_of_ne (by simp)) (by simp)
  | kill => exact absurd rfl hkill

namespace Outstanding

variable {app : System} {id k : Nat}

theorem of_put_home {h r : Home.Instance} (hid : app.instances[id]? = some (.home h))
    (ho : Outstanding (app.put id (.home r)) k) : Outstanding app k := by
  obtain ⟨q, hq, hwrites⟩ := ho
  rcases System.getElem?_put hid hq with ⟨-, heq⟩ | ⟨-, hq⟩
  · cases heq
  · exact ⟨q, hq, hwrites⟩

theorem of_put_quiz {q r : Quiz.Instance} (hid : app.instances[id]? = some (.quiz q))
    (ho : Outstanding (app.put id (.quiz r)) k) : Outstanding app k ∨ (k = id ∧ r.writes ≠ []) := by
  obtain ⟨p, hp, hwrites⟩ := ho
  rcases System.getElem?_put hid hp with ⟨hk, heq⟩ | ⟨-, hp⟩
  · cases heq
    exact .inr ⟨hk, hwrites⟩
  · exact .inl ⟨p, hp, hwrites⟩

theorem of_push {i : Instance} (hi : ∀ q, i = .quiz q → q.writes = [])
    (ho : Outstanding (app.push i) k) : Outstanding app k := by
  obtain ⟨q, hq, hwrites⟩ := ho
  rcases System.getElem?_push hq with hq | heq
  · exact ⟨q, hq, hwrites⟩
  · exact absurd (hi q heq.symm) hwrites

theorem of_reacts {customData : Quiz.CustomData} {q r : Quiz.Instance} {e : Quiz.Event}
    {fx : List Effect} (hid : app.instances[id]? = some (.quiz q))
    (hr : Quiz.Reacts customData q e r fx) (ho : Outstanding (app.put id (.quiz r)) k) :
    Outstanding app k ∨ Submits app (.quiz id e) k := by
  rcases ho.of_put_quiz hid with ho | ⟨rfl, hwrites⟩
  · exact .inl ho
  · cases hr with
    | submit _ _ _ hlast => exact .inr ⟨rfl, q, hid, hlast⟩
    | settle => exact .inl ⟨q, hid, by simpa using hwrites⟩
    | resume hi =>
      refine .inl ⟨q, hid, ?_⟩
      intro hnil
      simp [hnil] at hi
    | _ => exact .inl ⟨q, hid, hwrites⟩

theorem not_boot (storage : Storage) (file : Option JsString) :
    ¬ Outstanding (boot storage file) k := by
  rintro ⟨q, hq, -⟩
  have hmem := List.mem_of_getElem? hq
  simp [boot] at hmem

theorem of_steps {customData : Quiz.CustomData} {app' : System} {e : Event}
    (hst : Steps customData app e app') (ho : Outstanding app' k) :
    Outstanding app k ∨ Submits app e k := by
  cases hst with
  | home hid => exact .inl (ho.of_put_home hid)
  | storeItem hid => exact .inl (of_put_home hid ho)
  | login hid =>
    refine .inl (of_put_home hid (of_push ?_ ho))
    rintro q ⟨⟩
    rfl
  | quiz hid hr => exact ho.of_reacts hid hr
  | storeFile hid hr => exact of_reacts hid hr ho
  | leave hid hr => exact of_reacts hid hr (ho.of_push (by simp))
  | unmount hid _ hr => exact of_reacts hid hr ho
  | back => exact .inl ho
  | kill => exact absurd ho (not_boot _ _)

end Outstanding

def Logged (app : System) (submitted : List Nat) : Prop := ∀ id, Outstanding app id → id ∈ submitted

def Alone (app : System) : Prop :=
  ∀ c id, app.currentQuiz = some c → Outstanding app id → id = c

theorem Logged.step {customData : Quiz.CustomData} {app app' : System} {e : Event} {l : List Nat}
    (h : Logged app l) (hst : Steps customData app e app') :
    Logged app' (l ++ submissions app e) := by
  intro id ho
  rcases ho.of_steps hst with ho | hs
  · exact List.mem_append_left _ (h id ho)
  · exact List.mem_append_right _ (mem_submissions.mpr hs)

theorem Alone.step {customData : Quiz.CustomData} {app app' : System} {e : Event} {l : List Nat}
    (h : Alone app) (hone : OneAtATime app l e) (hst : Steps customData app e app') :
    Alone app' := by
  by_cases hkill : e = .kill
  · subst hkill
    cases hst
    exact fun _ _ _ ho => absurd ho (Outstanding.not_boot _ _)
  intro c id hc ho
  have hold := ho.of_steps hst
  cases turns_of_steps hst hkill with
  | stay hsame _ _ =>
    rw [hsame] at hc
    rcases hold with ho | hs
    · exact h c id hc ho
    · rcases hone.submit id hs with hnone | hid
      · rw [hnone] at hc
        cases hc
      · exact Option.some.inj (hid.symm.trans hc)
  | enter hlogin _ =>
    rcases hold with ho | hs
    · exact absurd ho ((hone.login hlogin).2 id)
    · obtain ⟨_, rfl⟩ := hlogin.eq
      cases hs.1
  | leave _ _ hnone =>
    rw [hnone] at hc
    cases hc

theorem Alone.undisturbed {customData : Quiz.CustomData} {app app' : System} {e : Event}
    {l : List Nat} (h : Alone app) (hone : OneAtATime app l e) (hst : Steps customData app e app')
    (hkill : e ≠ .kill) : Undisturbed app l e where
  login hlogin := (hone.login hlogin).1
  resume id i he := by
    cases turns_of_steps hst hkill with
    | stay _ _ hne => exact absurd he (hne id i)
    | enter hlogin _ =>
      obtain ⟨_, rfl⟩ := hlogin.eq
      cases he
    | leave he' ho _ =>
      subst he
      cases he'
      cases hc : app.currentQuiz with
      | none => exact .inl rfl
      | some c => exact .inr (congrArg some (h c id hc ho).symm)

theorem orderly_of_undisturbed {customData : Quiz.CustomData} {app : System} {e : Event}
    {l : List Nat} (hlogged : Logged app l) (h : Undisturbed app l e) (hkill : e ≠ .kill) :
    Orderly customData app l e where
  entered app' id hst hid hne := by
    cases turns_of_steps (steps_of_step hst) hkill with
    | stay hsame _ _ => exact absurd (hsame ▸ hid) hne
    | enter hlogin _ => exact hlogin
    | leave _ _ hnone =>
      rw [hnone] at hid
      cases hid
  left app' id hst hid hne := by
    cases turns_of_steps (steps_of_step hst) hkill with
    | stay hsame _ _ => exact absurd (hsame ▸ hid) hne
    | enter hlogin _ =>
      rw [h.login hlogin] at hid
      cases hid
    | @leave k i he ho _ =>
      rcases h.resume k i he with hnone | hk
      · rw [hnone] at hid
        cases hid
      · cases hk.symm.trans hid
        exact ⟨⟨i, he⟩, hlogged _ ho⟩

theorem undisturbed_of_orderly {customData : Quiz.CustomData} {app app' : System} {e : Event}
    {l : List Nat} (h : Orderly customData app l e) (hst : step customData app e = some app')
    (hkill : e ≠ .kill) : Undisturbed app l e where
  login hlogin := by
    cases turns_of_steps (steps_of_step hst) hkill with
    | stay _ hno _ => exact absurd hlogin hno
    | enter _ hnew =>
      cases hc : app.currentQuiz with
      | none => rfl
      | some c =>
        have hne : app'.currentQuiz ≠ some c := by
          rw [hnew]
          intro heq
          exact absurd (Option.some.inj heq) (Nat.ne_of_gt (lt_of_currentQuiz hc))
        obtain ⟨⟨i, rfl⟩, -⟩ := h.left app' c hst hc hne
        obtain ⟨_, he⟩ := hlogin.eq
        cases he
    | leave he _ _ =>
      obtain ⟨_, he'⟩ := hlogin.eq
      cases he.symm.trans he'
  resume id i he := by
    cases turns_of_steps (steps_of_step hst) hkill with
    | stay _ _ hno => exact absurd he (hno id i)
    | enter hlogin _ =>
      obtain ⟨_, he'⟩ := hlogin.eq
      cases he.symm.trans he'
    | leave _ _ hnone =>
      cases hc : app.currentQuiz with
      | none => exact .inl rfl
      | some c =>
        obtain ⟨⟨j, he'⟩, -⟩ := h.left app' c hst hc (by simp [hnone])
        cases he.symm.trans he'
        exact .inr rfl

/-- In one session the quizzes are entered and left in order exactly when no current quiz
is disturbed, and none is when logins and submissions are made one at a time. -/
theorem orderly_iff_undisturbed (customData : Quiz.CustomData) (storage : Storage)
    (file : Option JsString) (es : List Event) (hkill : Event.kill ∉ es) :
    ((machine customData).Meets submissions (Orderly customData) (boot storage file) es ↔
      (machine customData).Meets submissions Undisturbed (boot storage file) es) ∧
    ((machine customData).Meets submissions OneAtATime (boot storage file) es →
      (machine customData).Meets submissions Undisturbed (boot storage file) es) := by
  have hne : ∀ e ∈ es, e ≠ .kill := by
    rintro e he rfl
    exact hkill he
  refine ⟨⟨?_, ?_⟩, ?_⟩
  · intro h
    refine h.mem.imp (K := fun _ _ => True) trivial (fun _ _ _ _ _ _ _ => trivial) ?_
    rintro app l e app' - ⟨horderly, he⟩ hst
    exact undisturbed_of_orderly horderly hst (hne e he)
  · intro h
    refine h.mem.imp (K := Logged) (fun _ ho => absurd ho (Outstanding.not_boot _ _)) ?_ ?_
    · intro app l e app' hlogged _ hst
      exact hlogged.step (steps_of_step hst)
    · rintro app l e app' hlogged ⟨hcalm, he⟩ -
      exact orderly_of_undisturbed hlogged hcalm (hne e he)
  · intro h
    refine h.mem.imp (K := fun app _ => Alone app) ?_ ?_ ?_
    · exact fun _ _ _ ho => absurd ho (Outstanding.not_boot _ _)
    · rintro app l e app' halone ⟨hone, -⟩ hst
      exact halone.step hone (steps_of_step hst)
    · rintro app l e app' halone ⟨hone, he⟩ hst
      exact halone.undisturbed hone (steps_of_step hst) (hne e he)

theorem acceptedLogin_iff (app : System) (e : Event) :
    (match e with
      | .home id .login => decide (¬ ∀ h, app.instances[id]? = some (.home h) →
        Home.validate h.state ≠ .ok (true, h.state))
      | _ => false) = true ↔ AcceptedLogin app e := by
  constructor
  · intro h
    split at h
    · simpa [AcceptedLogin] using h
    · cases h
  · rintro ⟨id, h, rfl, hid, hvalid⟩
    exact decide_eq_true fun hall => hall h hid hvalid

instance (app : System) (e : Event) : Decidable (AcceptedLogin app e) :=
  decidable_of_iff _ (acceptedLogin_iff app e)

theorem noWrites_iff (app : System) : NoWrites app ↔ ∀ id, ¬ Outstanding app id := by
  constructor
  · rintro hno id ⟨q, hid, hwrites⟩
    exact hwrites (hno q (List.mem_of_getElem? hid))
  · intro hno q hq
    obtain ⟨id, hid⟩ := List.mem_iff_getElem?.mp hq
    by_contra hwrites
    exact hno id ⟨q, hid, hwrites⟩

theorem oneAtATime_iff (app : System) (l : List Nat) (e : Event) :
    ((AcceptedLogin app e → app.currentQuiz = none ∧ NoWrites app) ∧
      ∀ id ∈ submissions app e, app.currentQuiz = none ∨ app.currentQuiz = some id) ↔
      OneAtATime app l e := by
  simp only [noWrites_iff, mem_submissions]
  exact ⟨fun h => ⟨h.1, h.2⟩, fun h => ⟨h.login, h.submit⟩⟩

instance (app : System) (l : List Nat) (e : Event) : Decidable (OneAtATime app l e) :=
  decidable_of_iff _ (oneAtATime_iff app l e)

theorem oneQuiz_orderly :
    (machine Quiz.customData).Meets submissions (Orderly Quiz.customData) freshInstall oneQuiz := by
  have h := orderly_iff_undisturbed Quiz.customData (fun _ => none) none oneQuiz (by decide)
  exact h.1.mpr (h.2 (Machine.meets_of_checks (by decide +kernel)))

/-- Submit is pressed twice; the first write completes, the user logs in again from the
next `HomeScreen`, and a new quiz is current when the second write completes. -/
def relogin : List Event :=
  attempt 0 1 ++ onQuiz 1 [.input .press, .settle 0 true, .resume 0] ++
    onHome 2 (typeEvents ann) ++ onHome 2 [.login] ++ onQuiz 1 [.settle 0 true]

theorem stale_completion_ends_quiz :
    Event.kill ∉ relogin ++ [.quiz 1 (.resume 0)] ∧
      ¬ (machine Quiz.customData).Meets submissions (Orderly Quiz.customData) freshInstall
        (relogin ++ [.quiz 1 (.resume 0)]) := by
  refine ⟨by decide, ?_⟩
  intro h
  have hbefore : ((machine Quiz.customData).run freshInstall relogin).map System.currentQuiz =
      some (some 3) := by decide +kernel
  have hafter : ((machine Quiz.customData).run freshInstall
      (relogin ++ [.quiz 1 (.resume 0)])).map System.currentQuiz = some none := by decide +kernel
  obtain ⟨app, hrun, hquiz⟩ := Option.map_eq_some_iff.mp hbefore
  obtain ⟨app', hrun', hnone⟩ := Option.map_eq_some_iff.mp hafter
  obtain ⟨t, ht, hst⟩ := (Machine.run_snoc _ _ _ _ _).mp hrun'
  cases hrun.symm.trans ht
  obtain ⟨⟨i, he⟩, -⟩ := (h.last hrun hst).left app' 3 hst hquiz (by simp [hnone])
  cases he

end QuizApp.App
