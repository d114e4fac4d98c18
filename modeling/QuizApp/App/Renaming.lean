import QuizApp.Home.Renaming
import QuizApp.App.RoundTrip

namespace QuizApp.Home.Renaming

open Js App

variable (φ : Renaming)

def storage (st : Storage) : Storage := fun key => (st key).map (φ.text key)

def screen : App.Instance → App.Instance
  | .home h => .home (φ.home h)
  | .quiz q => .quiz q

def system (app : System) : System :=
  { app with storage := φ.storage app.storage, instances := app.instances.map φ.screen }

def request (app : System) : App.Event → App.Event
  | .home id e =>
    match app.instances[id]? with
    | some (.home h) => .home id (φ.event h e)
    | _ => .home id e
  | e => e

theorem storage_setItem (st : Storage) (key : String) (v : JsString) :
    φ.storage (st.setItem key v) = (φ.storage st).setItem key (φ.text key v) := by
  funext k
  by_cases hk : k = key
  · subst hk
    simp [storage, Storage.setItem]
  · simp [storage, Storage.setItem, hk]

theorem system_boot (st : Storage) (file : Option JsString) :
    φ.system (boot st file) = boot (φ.storage st) file := by
  simp [system, boot, screen, home_initial]

theorem system_put (app : System) (id : Nat) (i : App.Instance) :
    φ.system (app.put id i) = (φ.system app).put id (φ.screen i) := by
  simp [system, System.put, List.map_set]

theorem system_push (app : System) (i : App.Instance) :
    φ.system (app.push i) = (φ.system app).push (φ.screen i) := by
  simp [system, System.push]

variable {customData : Quiz.CustomData} {app : System} {id : Nat}

theorem getElem?_system {i : App.Instance} (hid : app.instances[id]? = some i) :
    (φ.system app).instances[id]? = some (φ.screen i) := by
  simp [system, hid]

theorem perform_system (app : System) (x : Effect) :
    perform customData (φ.system app) (φ.effect x) = (perform customData app x).map φ.system := by
  cases x with
  | storeItem key v => simp [perform, effect, system, storage_setItem]
  | replace name =>
    cases name with
    | homeScreen => simp [perform, effect, system_push, screen, home_initial]
    | quizScreen =>
      simp only [perform, effect]
      cases Quiz.mount customData with
      | error error => rfl
      | ok s => simp [system, System.push, screen]
  | _ => rfl

theorem performAll_system (customData : Quiz.CustomData) (app : System) (fx : List Effect) :
    performAll customData (φ.system app) (fx.map φ.effect) =
      (performAll customData app fx).map φ.system := by
  induction fx generalizing app with
  | nil => rfl
  | cons x fx ih =>
    simp only [List.map_cons, performAll, perform_system]
    cases perform customData app x with
    | none => rfl
    | some app => exact ih app

theorem honest_event {h : Instance} {e : Event} (hhonest : honest app h e = true) :
    honest (φ.system app) (φ.home h) (φ.event h e) = true := by
  cases e with
  | settleLoad reply =>
    cases reply with
    | rejected =>
      simp only [event]
      split <;> rfl
    | fulfilled v =>
      cases hl : h.load with
      | none => simp [event, honest, home, hl]
      | some l =>
        cases l with
        | settled point reply => simp [event, honest, home, load, hl]
        | calling point =>
          simp only [honest, hl, beq_iff_eq] at hhonest
          simp [event, honest, home, load, reply, hl, system, storage, value, hhonest]
  | settleExists reply => cases reply <;> exact hhonest
  | settleRead reply => cases reply <;> exact hhonest
  | _ => rfl

theorem event_eq_unmount {h : Instance} {e : Event} (he : φ.event h e = .unmount) :
    e = .unmount := by
  cases e with
  | settleLoad reply =>
    simp only [event] at he
    split at he <;> cases he
  | unmount => rfl
  | _ => cases he

theorem map_effect_of_reacts {q r : Quiz.Instance} {e : Quiz.Event} {fx : List Effect}
    (hr : Quiz.Reacts customData q e r fx) : fx.map φ.effect = fx := by
  cases hr with
  | @settle _ ok => cases ok <;> rfl
  | @resume _ ok => cases ok <;> rfl
  | _ => rfl

theorem step_home {h : Instance} {e : Event} {app' : System}
    (hid : app.instances[id]? = some (.home h))
    (hstep : step customData app (.home id e) = some app') :
    step customData (φ.system app) (.home id (φ.event h e)) = some (φ.system app') := by
  simp only [step, hid] at hstep
  split at hstep
  case isFalse => cases hstep
  case isTrue hg =>
    obtain ⟨⟨r, fx⟩, hr, hp⟩ := Option.bind_eq_some_iff.mp hstep
    have hreact := react_of_reacts (φ.reacts (reacts_of_react hr))
    have hperform := φ.performAll_system customData (app.put id (.home r)) fx
    rw [system_put, hp] at hperform
    simp only [step, φ.getElem?_system hid, screen]
    rw [if_pos ⟨φ.honest_event hg.1, fun he => hg.2 (φ.event_eq_unmount he)⟩, hreact]
    exact hperform

theorem step_quiz_of_ne {q : Quiz.Instance} {e : Quiz.Event}
    (hid : app.instances[id]? = some (.quiz q)) (he : e ≠ .unmount) :
    step customData app (.quiz id e) = (Quiz.react customData q e).bind fun r =>
      performAll customData (app.put id (.quiz r.1)) r.2 := by
  cases e with
  | unmount => exact absurd rfl he
  | _ => simp only [step, hid]

theorem step_quiz {q : Quiz.Instance} {e : Quiz.Event} {app' : System}
    (hid : app.instances[id]? = some (.quiz q))
    (hstep : step customData app (.quiz id e) = some app') :
    step customData (φ.system app) (.quiz id e) = some (φ.system app') := by
  have hid' := φ.getElem?_system hid
  by_cases he : e = .unmount
  · subst he
    simp only [step, hid, hid', screen] at hstep ⊢
    split at hstep
    case isFalse => cases hstep
    case isTrue hne =>
      obtain ⟨r, hr, rfl⟩ := Option.map_eq_some_iff.mp hstep
      rw [if_pos (show id ≠ (φ.system app).current from hne), hr]
      simp [system, System.put, List.map_set, screen]
  · rw [step_quiz_of_ne hid he] at hstep
    obtain ⟨⟨r, fx⟩, hr, hp⟩ := Option.bind_eq_some_iff.mp hstep
    have hperform := φ.performAll_system customData (app.put id (.quiz r)) fx
    rw [φ.map_effect_of_reacts ((Quiz.react_iff customData q e r fx).mp hr), system_put, hp]
      at hperform
    rw [step_quiz_of_ne hid' he, hr]
    exact hperform

theorem step_system {e : App.Event} {app' : System} (hstep : step customData app e = some app') :
    step customData (φ.system app) (φ.request app e) = some (φ.system app') := by
  cases e with
  | home id e =>
    cases hid : app.instances[id]? with
    | none => simp [step, hid] at hstep
    | some i =>
      cases i with
      | home h => simpa only [request, hid] using φ.step_home hid hstep
      | quiz q => simp [step, hid] at hstep
  | quiz id e =>
    cases hid : app.instances[id]? with
    | none => cases e <;> simp [step, hid] at hstep
    | some i =>
      cases i with
      | home h => cases e <;> simp [step, hid] at hstep
      | quiz q => exact φ.step_quiz hid hstep
  | back =>
    simp only [step] at hstep
    split at hstep <;> cases hstep
    rename_i hmem
    simp only [request, step]
    rw [if_pos (show _ ∈ (φ.system app).handlers from hmem)]
    rfl
  | kill =>
    cases hstep
    exact congrArg some (φ.system_boot app.storage app.file).symm

end QuizApp.Home.Renaming

namespace QuizApp.App

open Js
open Home (Field Renaming ann bob)

/-- The app with other texts in its storage, form and saves, and the user typing these, runs
as before: the same screens, quizzes, scores and error texts at every point. -/
theorem texts_opaque {customData : Quiz.CustomData} (φ : Renaming) {storage : Storage}
    {file : Option JsString} {es : List Event} {app : System}
    (hrun : (machine customData).run (boot storage file) es = some app) :
    (machine customData).run (boot (φ.storage storage) file)
        ((machine customData).log (fun app e => [φ.request app e]) (boot storage file) es) =
      some (φ.system app) := by
  have hinit : (machine customData).run (boot (φ.storage storage) file) [] =
      some (φ.system (boot storage file)) := congrArg some (φ.system_boot storage file).symm
  apply Machine.run_invariant (K := fun app fs =>
    (machine customData).run (boot (φ.storage storage) file) fs = some (φ.system app)) hinit ?_ hrun
  intro before fs e after hfs hstep
  exact (Machine.run_snoc _ _ _ _ _).mpr ⟨_, hfs, φ.step_system hstep⟩

def bobForAnn : Renaming :=
  .swap ann bob (fun f => by cases f <;> decide) (fun f => by cases f <;> decide)

theorem savedQuiz_opaque : ∃ app,
    (machine Quiz.customData).run freshInstall savedQuiz = some app ∧
      (machine Quiz.customData).run freshInstall ((machine Quiz.customData).log
          (fun app e => [bobForAnn.request app e]) freshInstall savedQuiz) =
        some (bobForAnn.system app) ∧
      (∀ f : Field, app.storage f.key = some (ann.get f)) ∧
      (∀ f : Field, (bobForAnn.system app).storage f.key = some (bob.get f)) ∧
      (bobForAnn.system app).file = some (numeral 4) := by
  have hend : ((machine Quiz.customData).run freshInstall savedQuiz).map
      (fun app => (app.file, Field.all.map fun f => app.storage f.key)) =
      some (some (numeral 4), Field.all.map fun f => some (ann.get f)) := by decide +kernel
  obtain ⟨app, hrun, hstored⟩ := Option.map_eq_some_iff.mp hend
  obtain ⟨hfile, hstorage⟩ := Prod.mk.inj hstored
  have hann : ∀ f : Field, app.storage f.key = some (ann.get f) :=
    fun f => List.map_inj_left.mp hstorage f f.mem_all
  refine ⟨app, hrun, texts_opaque bobForAnn hrun, hann, fun f => ?_, hfile⟩
  have hbob : bobForAnn.text f.key (ann.get f) = bob.get f := by cases f <;> decide
  rw [← hbob]
  exact congrArg (Option.map (bobForAnn.text f.key)) (hann f)

end QuizApp.App
