import Mathlib.Data.List.DropRight
import QuizApp.Machine.Refine
import QuizApp.Home.Page
import QuizApp.Quiz.Tally
import QuizApp.App.Projection

namespace QuizApp.App

open Js
open Home (ann)
open Quiz (Bank)

def Event.toHome (id : Nat) : Event → Option Home.Event
  | .home k e => if k = id then some e else none
  | _ => none

def Event.toQuiz (id : Nat) : Event → Option Quiz.Event
  | .quiz k e => if k = id then some e else none
  | _ => none

def Event.screen : Event → Option Nat
  | .home id _ | .quiz id _ => some id
  | .back | .kill => none

def session (es : List Event) : List Event := es.rtakeWhile (· ≠ .kill)

def Instance.Ran (customData : Quiz.CustomData) (id : Nat) (es : List Event) : Instance → Prop
  | .home h => Home.machine.run {} (es.filterMap (Event.toHome id)) = some h
  | .quiz q => (Quiz.machine customData).run (.fresh customData) (es.filterMap (Event.toQuiz id)) =
    some q

structure Composed (customData : Quiz.CustomData) (app : System) (es : List Event) : Prop where
  screens : ∀ e ∈ es, ∀ id, e.screen = some id → id < app.instances.length
  instances : ∀ (id : Nat) i, app.instances[id]? = some i → i.Ran customData id es

theorem Event.toHome_of_ne {e : Event} {id : Nat} (h : e.screen ≠ some id) : e.toHome id = none := by
  cases e with
  | home k e =>
    rw [toHome, if_neg]
    rintro rfl
    exact h rfl
  | _ => rfl

theorem Event.toQuiz_of_ne {e : Event} {id : Nat} (h : e.screen ≠ some id) : e.toQuiz id = none := by
  cases e with
  | quiz k e =>
    rw [toQuiz, if_neg]
    rintro rfl
    exact h rfl
  | _ => rfl

section Ran

variable {customData : Quiz.CustomData} {id : Nat} {es : List Event} {e : Event} {i : Instance}

theorem Instance.Ran.of_ne (hi : i.Ran customData id es) (he : e.screen ≠ some id) :
    i.Ran customData id (es ++ [e]) := by
  cases i with
  | home h => simpa [Instance.Ran, Event.toHome_of_ne he] using hi
  | quiz q => simpa [Instance.Ran, Event.toQuiz_of_ne he] using hi

theorem Instance.Ran.home {h r : Home.Instance} {e : Home.Event} {fx : List Effect}
    (hh : (Instance.home h).Ran customData id es) (hr : Home.Reacts h e r fx) :
    (Instance.home r).Ran customData id (es ++ [.home id e]) := by
  have happ : (es ++ [Event.home id e]).filterMap (Event.toHome id) =
      es.filterMap (Event.toHome id) ++ [e] := by simp [Event.toHome]
  rw [Instance.Ran, happ, Machine.run_snoc]
  exact ⟨h, hh, (Home.step_iff h e r).mpr ⟨fx, hr⟩⟩

theorem Instance.Ran.quiz {q r : Quiz.Instance} {e : Quiz.Event} {fx : List Effect}
    (hq : (Instance.quiz q).Ran customData id es) (hr : Quiz.Reacts customData q e r fx) :
    (Instance.quiz r).Ran customData id (es ++ [.quiz id e]) := by
  have happ : (es ++ [Event.quiz id e]).filterMap (Event.toQuiz id) =
      es.filterMap (Event.toQuiz id) ++ [e] := by simp [Event.toQuiz]
  rw [Instance.Ran, happ, Machine.run_snoc]
  exact ⟨q, hq, (Quiz.step_iff customData q e r).mpr ⟨fx, hr⟩⟩

theorem Instance.Ran.fresh (hes : ∀ e ∈ es, e.screen ≠ some id)
    (hi : i = .home {} ∨ i = .quiz (.fresh customData)) : i.Ran customData id es := by
  rcases hi with rfl | rfl
  · rw [Instance.Ran, List.filterMap_eq_nil_iff.mpr fun e he => Event.toHome_of_ne (hes e he)]
    rfl
  · rw [Instance.Ran, List.filterMap_eq_nil_iff.mpr fun e he => Event.toQuiz_of_ne (hes e he)]
    rfl

end Ran

namespace Composed

variable {customData : Quiz.CustomData} {app app' : System} {es : List Event} {id : Nat}

theorem boot (storage : Storage) (file : Option JsString) :
    Composed customData (boot storage file) [] where
  screens _ he := by cases he
  instances id i hid := by
    cases List.mem_singleton.mp (List.mem_of_getElem? hid)
    exact .fresh (by simp) (.inl rfl)

theorem put {e : Event} {i j : Instance} (hc : Composed customData app es)
    (hid : app.instances[id]? = some i) (he : e.screen = some id)
    (hj : j.Ran customData id (es ++ [e])) : Composed customData (app.put id j) (es ++ [e]) where
  screens x hx k hk := by
    rw [System.put, List.length_set]
    rcases List.mem_append.mp hx with hx | hx
    · exact hc.screens x hx k hk
    · cases List.mem_singleton.mp hx
      cases he.symm.trans hk
      exact (List.getElem?_eq_some_iff.mp hid).1
  instances k x hx := by
    rcases System.getElem?_put hid hx with ⟨rfl, rfl⟩ | ⟨hne, hx⟩
    · exact hj
    · refine (hc.instances k x hx).of_ne ?_
      rw [he]
      exact fun heq => hne (Option.some.inj heq).symm

theorem push {i : Instance} (hc : Composed customData app es)
    (hi : i = .home {} ∨ i = .quiz (.fresh customData)) : Composed customData (app.push i) es where
  screens e he id hid := by
    rw [System.push, List.length_append]
    exact Nat.lt_add_right _ (hc.screens e he id hid)
  instances id x hx := by
    rw [System.push, List.getElem?_append] at hx
    split at hx
    · exact hc.instances id x hx
    · rename_i hlt
      cases List.mem_singleton.mp (List.mem_of_getElem? hx)
      exact .fresh (fun e he hid => hlt (hc.screens e he id hid)) hi

theorem of_instances (hc : Composed customData app es) (h : app'.instances = app.instances) :
    Composed customData app' es where
  screens := by
    rw [h]
    exact hc.screens
  instances := by
    rw [h]
    exact hc.instances

theorem back (hc : Composed customData app es) : Composed customData app (es ++ [.back]) where
  screens e he id hid := by
    rcases List.mem_append.mp he with he | he
    · exact hc.screens e he id hid
    · cases List.mem_singleton.mp he
      cases hid
  instances id i hi := (hc.instances id i hi).of_ne (by simp [Event.screen])

theorem step {e : Event} (hc : Composed customData app es) (hst : Steps customData app e app') :
    Composed customData app' (if e = .kill then [] else es ++ [e]) := by
  cases hst with
  | home hid _ _ hr =>
    rw [if_neg (by simp)]
    exact hc.put hid rfl ((hc.instances _ _ hid).home hr)
  | storeItem hid hr =>
    rw [if_neg (by simp)]
    exact (hc.put hid rfl ((hc.instances _ _ hid).home hr)).of_instances rfl
  | login hid hr hs =>
    rw [if_neg (by simp)]
    have hpush := (hc.put hid rfl ((hc.instances _ _ hid).home hr)).push
      (.inr (congrArg Instance.quiz (eq_fresh_of_mount hs)))
    exact hpush.of_instances rfl
  | quiz hid hr =>
    rw [if_neg (by simp)]
    exact hc.put hid rfl ((hc.instances _ _ hid).quiz hr)
  | storeFile hid hr =>
    rw [if_neg (by simp)]
    exact (hc.put hid rfl ((hc.instances _ _ hid).quiz hr)).of_instances rfl
  | leave hid hr =>
    rw [if_neg (by simp)]
    exact (hc.put hid rfl ((hc.instances _ _ hid).quiz hr)).push (.inl rfl)
  | unmount hid _ hr =>
    rw [if_neg (by simp)]
    exact (hc.put hid rfl ((hc.instances _ _ hid).quiz hr)).of_instances rfl
  | back =>
    rw [if_neg (by simp)]
    exact hc.back
  | kill =>
    rw [if_pos rfl]
    exact boot _ _

end Composed

theorem composed_of_run {customData : Quiz.CustomData} {storage : Storage} {file : Option JsString}
    {es : List Event} {app : System}
    (hrun : (machine customData).run (boot storage file) es = some app) :
    Composed customData app (session es) := by
  apply Machine.run_induction (D := fun _ => True)
    (P := fun app es => Composed customData app (session es)) (.boot storage file) ?_
    (fun _ _ => trivial) hrun
  intro es e before after hc _ _ hstep
  have hsession : session (es ++ [e]) = if e = .kill then [] else session es ++ [e] := by
    rw [session, List.rtakeWhile_concat]
    by_cases he : e = .kill
    · simp [he]
    · simp [he, session]
  rw [hsession]
  exact hc.step (steps_of_step hstep)

/-- In every state of every run, each screen shows what its own events of the session make of
it, whatever has happened to the other screens, the storage and the file. -/
theorem screens_show_own_history {N : Nat} (b : Bank N) {storage : Storage}
    {file : Option JsString} {es : List Event} {app : System}
    (hrun : (machine b.customData).run (boot storage file) es = some app) :
    (∀ (id : Nat) h, app.instances[id]? = some (.home h) →
      (∀ f, ((Home.render h.state).inputs.get f).defaultValue = Home.valueAfter f
          (Home.machine.log Home.notes {} ((session es).filterMap (Event.toHome id))) ∧
        (((Home.render h.state).inputs.get f).errorText = some f.errorText ↔ Home.Raised f
          (Home.machine.log Home.notes {} ((session es).filterMap (Event.toHome id))))) ∧
      (Home.render h.state).scoreDisplay = (Home.scoreAfter
        (Home.machine.log Home.notes {} ((session es).filterMap (Event.toHome id)))).map
          Home.scoreText) ∧
    ∀ (id : Nat) q, app.instances[id]? = some (.quiz q) → ∃ t question,
      (Quiz.tally N).run {}
          (((session es).filterMap (Event.toQuiz id)).flatMap Quiz.Event.inputs) = some t ∧
        b.customData.questions.at? (min (t.picks.length + 1) N : Nat) = some question ∧
        Quiz.page b.customData q.state = .ok (t.page b.customData N question) := by
  have hc := composed_of_run hrun
  refine ⟨?_, ?_⟩
  · intro id h hid
    exact (Home.reflects_of_run (hc.instances id _ hid)).page
  · intro id q hid
    obtain ⟨t, ht, htallied⟩ := Quiz.exists_tallied b (hc.instances id _ hid)
    obtain ⟨question, hquestion, hpage⟩ := htallied.page_eq
    exact ⟨t, question, ht, hquestion, hpage⟩

def staleLogin : List Event :=
  .kill :: onHome 0 ([.login, .edit .firstName (some (.lit "Bob"))] ++ Home.loadEvents ann.some ++
    [.login]) ++ onQuiz 1 [.input (.tap 2)]

theorem staleLogin_shows :
    ∃ app h q question, (machine Quiz.customData).run (boot (Home.storageOf ann) none) staleLogin =
        some app ∧
      app.instances = [.home h, .quiz q] ∧
      (Home.render h.state).inputs.firstName.errorText ≠ some " field cannot be empty " ∧
      Home.Raised .lastName (Home.machine.log Home.notes {}
        ((session staleLogin).filterMap (Event.toHome 0))) ∧
      Quiz.page Quiz.customData q.state =
        .ok (({ selection := some 2 } : Quiz.Tally).page Quiz.customData 4 question) := by
  have hend : ∃ app h q, (machine Quiz.customData).run (boot (Home.storageOf ann) none) staleLogin =
        some app ∧ app.instances = [.home h, .quiz q] ∧
      (Home.render h.state).inputs.firstName.errorText ≠ some " field cannot be empty " ∧
      (Home.render h.state).inputs.lastName.errorText = some " field cannot be empty " :=
    ⟨_, _, _, rfl, rfl, by decide, by decide⟩
  obtain ⟨app, h, q, hrun, hinstances, hfirst, hlast⟩ := hend
  obtain ⟨hhomes, hquizzes⟩ := screens_show_own_history Quiz.bank hrun
  obtain ⟨hboxes, -⟩ := hhomes 0 h (by simp [hinstances])
  obtain ⟨t, question, ht, -, hpage⟩ := hquizzes 1 q (by simp [hinstances])
  cases ht
  exact ⟨app, h, q, question, hrun, hinstances, hfirst, (hboxes .lastName).2.mp hlast, hpage⟩

end QuizApp.App
