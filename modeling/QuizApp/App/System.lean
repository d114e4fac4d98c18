import QuizApp.Quiz.Screen
import QuizApp.Quiz.BackHandler
import QuizApp.Home.Save

/-! The whole app: every screen instance of the running session with its unfinished async
work, the storage and the score file they share, and the navigator's current route.
`replace` swaps the current route for a fresh instance, whichever instance calls it; the
replaced instance stays mounted until it is unmounted.  `kill` ends the session and
starts the next one with nothing but the storage and the file. -/

namespace QuizApp.App

open Js

inductive Instance
  | home (h : Home.Instance)
  | quiz (q : Quiz.Instance)
  deriving DecidableEq

structure System where
  storage : Storage
  file : Option JsString
  instances : List Instance
  current : Nat
  handlers : List Quiz.Handler

inductive Event
  | home (id : Nat) (e : Home.Event)
  | quiz (id : Nat) (e : Quiz.Event)
  | back
  | kill
  deriving DecidableEq

def boot (storage : Storage) (file : Option JsString) : System :=
  { storage, file, instances := [.home {}], current := 0, handlers := [] }

def freshInstall : System := boot (fun _ => none) none

/-- A native call that succeeds answers with what the storage and the file hold. -/
def honest (app : System) (h : Home.Instance) : Home.Event → Bool
  | .settleLoad (.fulfilled value) =>
    match h.load with
    | some (.calling point) => value == app.storage point.key.key
    | _ => true
  | .settleExists (.fulfilled value) => value == app.file.isSome
  | .settleRead (.fulfilled value) => app.file == some value
  | _ => true

def System.put (app : System) (id : Nat) (i : Instance) : System :=
  { app with instances := app.instances.set id i }

def System.push (app : System) (i : Instance) : System :=
  { app with instances := app.instances ++ [i], current := app.instances.length }

def perform (customData : Quiz.CustomData) (app : System) : Effect → Option System
  | .storeFile content => some { app with file := some content }
  | .storeItem key value => some { app with storage := app.storage.setItem key value }
  | .replace .homeScreen => some (app.push (.home {}))
  | .replace .quizScreen =>
    match Quiz.mount customData with
    | .ok s =>
      some { app.push (.quiz { state := s }) with handlers := Quiz.componentDidMount app.handlers }
    | .error _ => none
  | .callWriteFile _ | .alert _ | .unhandledRejection _ => some app

def performAll (customData : Quiz.CustomData) : System → List Effect → Option System
  | app, [] => some app
  | app, x :: fx => (perform customData app x).bind fun app => performAll customData app fx

def step (customData : Quiz.CustomData) (app : System) : Event → Option System
  | .home id e =>
    match app.instances[id]? with
    | some (.home h) =>
      if honest app h e = true ∧ (e = .unmount → id ≠ app.current) then
        (Home.react h e).bind fun r => performAll customData (app.put id (.home r.1)) r.2
      else none
    | _ => none
  | .quiz id .unmount =>
    match app.instances[id]? with
    | some (.quiz q) =>
      if id ≠ app.current then
        (Quiz.react customData q .unmount).map fun r =>
          { app.put id (.quiz r.1) with handlers := Quiz.componentWillUnmount app.handlers }
      else none
    | _ => none
  | .quiz id e =>
    match app.instances[id]? with
    | some (.quiz q) =>
      (Quiz.react customData q e).bind fun r =>
        performAll customData (app.put id (.quiz r.1)) r.2
    | _ => none
  | .back =>
    if .handleBackButton ∈ app.handlers then performAll customData app Quiz.handleBackButton.2
    else none
  | .kill => some (boot app.storage app.file)

def machine (customData : Quiz.CustomData) : Machine System Event where
  step := step customData

def onHome (id : Nat) (es : List Home.Event) : List Event := es.map (.home id)

def onQuiz (id : Nat) (es : List Quiz.Event) : List Event := es.map (.quiz id)

inductive Steps (customData : Quiz.CustomData) (app : System) : Event → System → Prop
  | home {id : Nat} {h r : Home.Instance} {e : Home.Event} {fx : List Effect} :
      app.instances[id]? = some (.home h) → honest app h e = true →
      (e = .unmount → id ≠ app.current) → Home.Reacts h e r fx →
      (∀ x ∈ fx, ∃ error, x = .unhandledRejection error) →
      Steps customData app (.home id e) (app.put id (.home r))
  | storeItem {id i : Nat} {h r : Home.Instance} {key : Home.Field} {value : JsString} :
      app.instances[id]? = some (.home h) →
      Home.Reacts h (.settleSave i true) r [.storeItem key.key value] →
      Steps customData app (.home id (.settleSave i true))
        { app.put id (.home r) with storage := app.storage.setItem key.key value }
  | login {id : Nat} {h r : Home.Instance} {s : Quiz.State} :
      app.instances[id]? = some (.home h) → Home.Reacts h .login r [.replace .quizScreen] →
      Quiz.mount customData = .ok s →
      Steps customData app (.home id .login)
        { (app.put id (.home r)).push (.quiz { state := s }) with
          handlers := Quiz.componentDidMount app.handlers }
  | quiz {id : Nat} {q r : Quiz.Instance} {e : Quiz.Event} {fx : List Effect} :
      app.instances[id]? = some (.quiz q) → Quiz.Reacts customData q e r fx →
      (∀ x ∈ fx, ∃ content, x = .callWriteFile content) → e ≠ .unmount →
      Steps customData app (.quiz id e) (app.put id (.quiz r))
  | storeFile {id i : Nat} {q r : Quiz.Instance} {content : JsString} :
      app.instances[id]? = some (.quiz q) →
      Quiz.Reacts customData q (.settle i true) r [.storeFile content] →
      Steps customData app (.quiz id (.settle i true))
        { app.put id (.quiz r) with file := some content }
  | leave {id i : Nat} {q r : Quiz.Instance} {fx : List Effect} :
      app.instances[id]? = some (.quiz q) → Quiz.Reacts customData q (.resume i) r fx →
      Steps customData app (.quiz id (.resume i)) ((app.put id (.quiz r)).push (.home {}))
  | unmount {id : Nat} {q r : Quiz.Instance} :
      app.instances[id]? = some (.quiz q) → id ≠ app.current →
      Quiz.Reacts customData q .unmount r [] →
      Steps customData app (.quiz id .unmount)
        { app.put id (.quiz r) with handlers := Quiz.componentWillUnmount app.handlers }
  | back : .handleBackButton ∈ app.handlers → Steps customData app .back app
  | kill : Steps customData app .kill (boot app.storage app.file)

theorem performAll_inert {customData : Quiz.CustomData} {app : System} {fx : List Effect}
    (h : ∀ x ∈ fx, perform customData app x = some app) :
    performAll customData app fx = some app := by
  induction fx with
  | nil => rfl
  | cons x fx ih =>
    simp only [performAll, h x List.mem_cons_self, Option.bind_some]
    exact ih fun y hy => h y (List.mem_cons_of_mem x hy)

theorem steps_of_home {customData : Quiz.CustomData} {app app' : System} {id : Nat}
    {h r : Home.Instance} {e : Home.Event} {fx : List Effect}
    (hid : app.instances[id]? = some (.home h)) (hhonest : honest app h e = true)
    (hcurrent : e = .unmount → id ≠ app.current) (hr : Home.Reacts h e r fx)
    (hp : performAll customData (app.put id (.home r)) fx = some app') :
    Steps customData app (.home id e) app' := by
  have quiet : (∀ x ∈ fx, ∃ error, x = Effect.unhandledRejection error) →
      Steps customData app (.home id e) app' := by
    intro hfx
    rw [performAll_inert (by
      intro x hx
      obtain ⟨error, rfl⟩ := hfx x hx
      rfl)] at hp
    cases hp
    exact .home hid hhonest hcurrent hr hfx
  cases hr with
  | accepted hm hf =>
    cases hs : Quiz.mount customData with
    | error error => simp [performAll, perform, hs] at hp
    | ok s =>
      simp only [performAll, perform, hs, Option.bind_some, Option.some.injEq] at hp
      subst hp
      exact .login hid (.accepted hm hf) hs
  | storeItem hi =>
    cases hp
    exact .storeItem hid (.storeItem hi)
  | saveFailed | loadFailed | readFailed => exact quiet (by simp [Home.catchBlock_eq])
  | _ => exact quiet (by simp)

theorem steps_of_quiz {customData : Quiz.CustomData} {app app' : System} {id : Nat}
    {q r : Quiz.Instance} {e : Quiz.Event} {fx : List Effect}
    (hid : app.instances[id]? = some (.quiz q)) (he : e ≠ .unmount)
    (hr : Quiz.Reacts customData q e r fx)
    (hp : performAll customData (app.put id (.quiz r)) fx = some app') :
    Steps customData app (.quiz id e) app' := by
  have quiet : (∀ x ∈ fx, ∃ content, x = Effect.callWriteFile content) →
      Steps customData app (.quiz id e) app' := by
    intro hfx
    rw [performAll_inert (by
      intro x hx
      obtain ⟨content, rfl⟩ := hfx x hx
      rfl)] at hp
    cases hp
    exact .quiz hid hr hfx he
  cases hr with
  | @settle i ok content hi =>
    cases ok with
    | false => exact quiet (by simp)
    | true =>
      cases hp
      exact .storeFile hid (Quiz.Reacts.settle hi)
  | @resume i ok hi =>
    have hleave :
        app' = (app.put id (.quiz { q with writes := q.writes.eraseIdx i })).push (.home {}) := by
      cases ok <;> (cases hp; rfl)
    subst hleave
    exact .leave hid (.resume hi)
  | unmount => exact absurd rfl he
  | _ => exact quiet (by simp)

theorem ne_resume_of_reacts {customData : Quiz.CustomData} {q r : Quiz.Instance} {e : Quiz.Event}
    {fx : List Effect} (hr : Quiz.Reacts customData q e r fx)
    (hfx : ∀ x ∈ fx, ∃ content, x = Effect.callWriteFile content) (i : Nat) : e ≠ .resume i := by
  rintro rfl
  cases hr with
  | @resume _ ok _ =>
    obtain ⟨content, hx⟩ := hfx (.replace .homeScreen) (by cases ok <;> simp [Quiz.afterWrite])
    cases hx

theorem steps_of_step {customData : Quiz.CustomData} {app app' : System} {e : Event}
    (h : step customData app e = some app') : Steps customData app e app' := by
  cases e with
  | home id e =>
    simp only [step] at h
    split at h
    case h_2 => cases h
    case h_1 i hid =>
      split at h
      case isFalse => cases h
      case isTrue hg =>
        obtain ⟨r, hr, hp⟩ := Option.bind_eq_some_iff.mp h
        exact steps_of_home hid hg.1 hg.2 ((Home.react_iff _ _ _ _).mp hr) hp
  | quiz id e =>
    by_cases he : e = .unmount
    · subst he
      simp only [step] at h
      split at h
      case h_2 => cases h
      case h_1 q hid =>
        split at h
        case isFalse => cases h
        case isTrue hne =>
          obtain ⟨⟨r, fx⟩, hr, rfl⟩ := Option.map_eq_some_iff.mp h
          have hr := (Quiz.react_iff customData q _ r fx).mp hr
          have hfx : fx = [] := by
            cases hr
            rfl
          exact .unmount hid hne (hfx ▸ hr)
    · have h : (match app.instances[id]? with
          | some (.quiz q) => (Quiz.react customData q e).bind fun r =>
            performAll customData (app.put id (.quiz r.1)) r.2
          | _ => none) = some app' := by
        cases e with
        | unmount => exact absurd rfl he
        | _ => exact h
      split at h
      case h_2 => cases h
      case h_1 q hid =>
        obtain ⟨r, hr, hp⟩ := Option.bind_eq_some_iff.mp h
        exact steps_of_quiz hid he ((Quiz.react_iff customData q e r.1 r.2).mp hr) hp
  | back =>
    simp only [step] at h
    split at h <;> cases h
    exact .back ‹_›
  | kill =>
    cases h
    exact .kill

theorem System.mem_put {app : System} {id : Nat} {i x : Instance}
    (h : x ∈ (app.put id i).instances) : x ∈ app.instances ∨ x = i :=
  List.mem_or_eq_of_mem_set h

theorem System.mem_push {app : System} {i x : Instance} (h : x ∈ (app.push i).instances) :
    x ∈ app.instances ∨ x = i := by
  simpa [System.push] using h

theorem System.forall_put {app : System} {P : Instance → Prop} {id : Nat} {i : Instance}
    (h : ∀ x ∈ app.instances, P x) (hi : P i) : ∀ x ∈ (app.put id i).instances, P x := by
  intro x hx
  rcases System.mem_put hx with hx | rfl
  · exact h x hx
  · exact hi

theorem System.forall_push {app : System} {P : Instance → Prop} {i : Instance}
    (h : ∀ x ∈ app.instances, P x) (hi : P i) : ∀ x ∈ (app.push i).instances, P x := by
  intro x hx
  rcases System.mem_push hx with hx | rfl
  · exact h x hx
  · exact hi

theorem System.mem_put_self {app : System} {id : Nat} {i j : Instance}
    (h : app.instances[id]? = some j) : i ∈ (app.put id i).instances := by
  obtain ⟨hlt, -⟩ := List.getElem?_eq_some_iff.mp h
  exact List.mem_set hlt i

theorem System.mem_put_of_ne {app : System} {id : Nat} {i j x : Instance}
    (hid : app.instances[id]? = some j) (hx : x ∈ app.instances) (hne : x ≠ j) :
    x ∈ (app.put id i).instances := by
  obtain ⟨k, hk⟩ := List.mem_iff_getElem?.mp hx
  have hkid : id ≠ k := by
    rintro rfl
    exact hne (Option.some.inj (hk.symm.trans hid))
  exact List.mem_of_getElem? (i := k) (by simpa [System.put, List.getElem?_set_ne hkid] using hk)

theorem System.mem_put_iff {app : System} {id : Nat} {i j x : Instance}
    (hid : app.instances[id]? = some j) (hi : x ≠ i) (hj : x ≠ j) :
    x ∈ (app.put id i).instances ↔ x ∈ app.instances :=
  ⟨fun hx => (System.mem_put hx).resolve_right hi, fun hx => System.mem_put_of_ne hid hx hj⟩

theorem System.forall_home_put {app : System} {P : Home.Instance → Prop} {id : Nat}
    {r : Home.Instance} (h : ∀ g, .home g ∈ app.instances → P g) (hr : P r) :
    ∀ g, .home g ∈ (app.put id (.home r)).instances → P g := by
  intro g hg
  rcases System.mem_put hg with hg | heq
  · exact h g hg
  · cases heq
    exact hr

theorem System.home_mem_put_quiz {app : System} {id : Nat} {q r : Quiz.Instance}
    (hid : app.instances[id]? = some (.quiz q)) (h : Home.Instance) :
    .home h ∈ (app.put id (.quiz r)).instances ↔ .home h ∈ app.instances :=
  System.mem_put_iff hid (by simp) (by simp)

@[simp] theorem System.put_self {app : System} {id : Nat} {i j : Instance}
    (hid : app.instances[id]? = some j) : (app.put id i).instances[id]? = some i := by
  obtain ⟨hlt, -⟩ := List.getElem?_eq_some_iff.mp hid
  simp [System.put, hlt]

@[simp] theorem System.put_of_ne (app : System) {id k : Nat} (i : Instance) (h : k ≠ id) :
    (app.put id i).instances[k]? = app.instances[k]? := by
  simp [System.put, List.getElem?_set_ne h.symm]

theorem System.getElem?_put {app : System} {id k : Nat} {i j x : Instance}
    (hid : app.instances[id]? = some j) (hx : (app.put id i).instances[k]? = some x) :
    (k = id ∧ x = i) ∨ (k ≠ id ∧ app.instances[k]? = some x) := by
  by_cases hk : k = id
  · subst hk
    rw [System.put_self hid] at hx
    exact .inl ⟨rfl, (Option.some.inj hx).symm⟩
  · rw [System.put_of_ne app _ hk] at hx
    exact .inr ⟨hk, hx⟩

theorem System.getElem?_push {app : System} {k : Nat} {i x : Instance}
    (hx : (app.push i).instances[k]? = some x) : app.instances[k]? = some x ∨ x = i := by
  simp only [System.push, List.getElem?_append] at hx
  split at hx
  · exact .inl hx
  · rw [List.getElem?_singleton] at hx
    split at hx
    · exact .inr (Option.some.inj hx).symm
    · cases hx

@[simp] theorem System.push_current (app : System) (i : Instance) :
    (app.push i).instances[(app.push i).current]? = some i := by
  simp [System.push]

theorem eq_fresh_of_mount {customData : Quiz.CustomData} {s : Quiz.State}
    (h : Quiz.mount customData = .ok s) : { state := s } = Quiz.Instance.fresh customData := by
  cases hslots : customData.options.at? (Quiz.State.initial customData).currentQuestion with
  | none =>
    rw [Quiz.mount, Quiz.setState_of_none hslots] at h
    cases h
  | some slots =>
    rw [Quiz.mount, Quiz.setState_of_isSome (by rw [hslots]; rfl)] at h
    cases h
    rfl

theorem forall_instances_step {customData : Quiz.CustomData} {app app' : System} {e : Event}
    {P : Instance → Prop} (hst : Steps customData app e app') (hhome : P (.home {}))
    (hquiz : P (.quiz (.fresh customData)))
    (hhomes : ∀ id h r e' fx, e = .home id e' → app.instances[id]? = some (.home h) →
      honest app h e' = true → Home.Reacts h e' r fx → P (.home h) → P (.home r))
    (hquizzes : ∀ id q r e' fx, e = .quiz id e' → app.instances[id]? = some (.quiz q) →
      Quiz.Reacts customData q e' r fx → P (.quiz q) → P (.quiz r))
    (h : ∀ i ∈ app.instances, P i) : ∀ i ∈ app'.instances, P i := by
  cases hst with
  | home hid hhonest _ hr =>
    exact System.forall_put h (hhomes _ _ _ _ _ rfl hid hhonest hr (h _ (List.mem_of_getElem? hid)))
  | storeItem hid hr =>
    exact System.forall_put h (hhomes _ _ _ _ _ rfl hid rfl hr (h _ (List.mem_of_getElem? hid)))
  | login hid hr hs =>
    refine System.forall_push (System.forall_put h ?_) ?_
    · exact hhomes _ _ _ _ _ rfl hid rfl hr (h _ (List.mem_of_getElem? hid))
    · rw [eq_fresh_of_mount hs]
      exact hquiz
  | quiz hid hr =>
    exact System.forall_put h (hquizzes _ _ _ _ _ rfl hid hr (h _ (List.mem_of_getElem? hid)))
  | storeFile hid hr =>
    exact System.forall_put h (hquizzes _ _ _ _ _ rfl hid hr (h _ (List.mem_of_getElem? hid)))
  | leave hid hr =>
    refine System.forall_push (System.forall_put h ?_) hhome
    exact hquizzes _ _ _ _ _ rfl hid hr (h _ (List.mem_of_getElem? hid))
  | unmount hid _ hr =>
    exact System.forall_put h (hquizzes _ _ _ _ _ rfl hid hr (h _ (List.mem_of_getElem? hid)))
  | back => exact h
  | kill =>
    intro i hi
    cases List.mem_singleton.mp hi
    exact hhome

theorem forall_homes_step {customData : Quiz.CustomData} {app app' : System} {e : Event}
    {P : Home.Instance → Prop} (hst : Steps customData app e app') (hfresh : P {})
    (hhomes : ∀ id h r e' fx, e = .home id e' → app.instances[id]? = some (.home h) →
      honest app h e' = true → Home.Reacts h e' r fx → P h → P r)
    (h : ∀ g, .home g ∈ app.instances → P g) : ∀ g, .home g ∈ app'.instances → P g := by
  intro g hg
  refine forall_instances_step (P := fun i => ∀ g, i = .home g → P g) hst ?_ (by simp) ?_ (by simp)
    ?_ _ hg g rfl
  · rintro _ ⟨⟩
    exact hfresh
  · rintro id g r e' fx he hid hhonest hr hg _ ⟨⟩
    exact hhomes id g r e' fx he hid hhonest hr (hg g rfl)
  · rintro _ hi g rfl
    exact h g hi

section Decidable

variable {P : Home.Instance → Prop} {Q : Quiz.Instance → Prop} [DecidablePred P] [DecidablePred Q]

instance (i : Instance) : Decidable (∀ h, i = .home h → P h) :=
  match i with
  | .home h => decidable_of_iff (P h) (by simp)
  | .quiz _ => isTrue (by simp)

instance (i : Instance) : Decidable (∀ q, i = .quiz q → Q q) :=
  match i with
  | .home _ => isTrue (by simp)
  | .quiz q => decidable_of_iff (Q q) (by simp)

instance (i : Option Instance) : Decidable (∀ h, i = some (.home h) → P h) :=
  match i with
  | some i => decidable_of_iff (∀ h, i = .home h → P h) (by simp)
  | none => isTrue (by simp)

instance (l : List Instance) : Decidable (∀ h, .home h ∈ l → P h) :=
  decidable_of_iff (∀ i ∈ l, ∀ h, i = .home h → P h)
    ⟨fun hall h hh => hall _ hh h rfl, fun hall _ hi h hh => hall h (hh ▸ hi)⟩

instance (l : List Instance) : Decidable (∀ q, .quiz q ∈ l → Q q) :=
  decidable_of_iff (∀ i ∈ l, ∀ q, i = .quiz q → Q q)
    ⟨fun hall q hq => hall _ hq q rfl, fun hall _ hi q hq => hall q (hq ▸ hi)⟩

end Decidable

end QuizApp.App
