import QuizApp.Machine.Measure
import QuizApp.Machine.Refine
import QuizApp.App.Score

namespace QuizApp.App

open Js
open Machine (total)

def alertOf : Effect → Option String
  | .alert message => some message
  | _ => none

def effects (customData : Quiz.CustomData) (app : System) : Event → List Effect
  | .home id e =>
    match app.instances[id]? with
    | some (.home h) => Home.effects h e
    | _ => []
  | .quiz id e =>
    match app.instances[id]? with
    | some (.quiz q) => (Quiz.react customData q e).elim [] Prod.snd
    | _ => []
  | .back => Quiz.handleBackButton.2
  | .kill => []

def alerts (customData : Quiz.CustomData) (app : System) (e : Event) : List String :=
  (effects customData app e).filterMap alertOf

def Event.failsWrite : Event → Bool
  | .quiz _ (.settle _ ok) => !ok
  | _ => false

def Instance.failing : Instance → Nat
  | .home _ => 0
  | .quiz q => total (fun w => (decide (w = .settled false)).toNat) q.writes

def System.failing (app : System) : Nat := total Instance.failing app.instances

structure Told (app : System) (shown : List String) (es : List Event) : Prop where
  failed : shown.count "Failed to store the score" + app.failing = es.countP Event.failsWrite
  back : shown.count "Please Complete Quiz" = es.count .back
  only : ∀ message ∈ shown, message = "Failed to store the score" ∨
    message = "Please Complete Quiz"

section Effects

variable {customData : Quiz.CustomData} {app : System} {id : Nat}

theorem effects_home {h r : Home.Instance} {e : Home.Event} {fx : List Effect}
    (hid : app.instances[id]? = some (.home h)) (hr : Home.Reacts h e r fx) :
    effects customData app (.home id e) = fx := by
  simp [effects, hid, Home.effects, Home.react_of_reacts hr]

theorem effects_quiz {q r : Quiz.Instance} {e : Quiz.Event} {fx : List Effect}
    (hid : app.instances[id]? = some (.quiz q)) (hr : Quiz.Reacts customData q e r fx) :
    effects customData app (.quiz id e) = fx := by
  simp [effects, hid, (Quiz.react_iff customData q e r fx).mpr hr]

theorem System.failing_put {i j : Instance} (hid : app.instances[id]? = some i) :
    (app.put id j).failing + i.failing = app.failing + j.failing :=
  Machine.total_set hid j

theorem System.failing_push (app : System) (i : Instance) :
    (app.push i).failing = app.failing + i.failing := by
  simp [System.failing, System.push]

theorem failing_reacts {q r : Quiz.Instance} {e : Quiz.Event} {fx : List Effect}
    (hr : Quiz.Reacts customData q e r fx) (id : Nat) :
    ∃ k, fx.filterMap alertOf = List.replicate k "Failed to store the score" ∧
      k + (Instance.quiz r).failing =
        (Instance.quiz q).failing + (Event.quiz id e).failsWrite.toNat := by
  cases hr with
  | tap | next | submit | unmount => exact ⟨0, rfl, by simp [Instance.failing, Event.failsWrite]⟩
  | @settle i ok content hi =>
    have hset := Machine.total_set (μ := fun w => (decide (w = .settled false)).toNat) hi
      (.settled ok)
    refine ⟨0, by cases ok <;> rfl, ?_⟩
    cases ok <;> simpa [Instance.failing, Event.failsWrite] using hset
  | @resume i ok hi =>
    have herase := Machine.total_eraseIdx (μ := fun w => (decide (w = .settled false)).toNat) hi
    refine ⟨(!ok).toNat, by cases ok <;> rfl, ?_⟩
    cases ok <;> simpa [Instance.failing, Event.failsWrite, Nat.add_comm] using herase

theorem alertOf_quiet {fx : List Effect}
    (hfx : ∀ x ∈ fx, ∃ error, x = Effect.unhandledRejection error) :
    fx.filterMap alertOf = [] := by
  apply List.filterMap_eq_nil_iff.mpr
  intro x hx
  obtain ⟨error, rfl⟩ := hfx x hx
  rfl

theorem failing_put_home {h : Home.Instance} (hid : app.instances[id]? = some (.home h))
    (r : Home.Instance) : (app.put id (.home r)).failing = app.failing :=
  System.failing_put hid

theorem failing_put_quiz {q r : Quiz.Instance} {e : Quiz.Event} {fx : List Effect}
    (hid : app.instances[id]? = some (.quiz q)) (hr : Quiz.Reacts customData q e r fx) :
    ∃ k, alerts customData app (.quiz id e) = List.replicate k "Failed to store the score" ∧
      k + (app.put id (.quiz r)).failing = app.failing + (Event.quiz id e).failsWrite.toNat := by
  obtain ⟨k, halerts, hk⟩ := failing_reacts hr id
  have hput := System.failing_put (j := .quiz r) hid
  refine ⟨k, ?_, by omega⟩
  rw [alerts, effects_quiz hid hr, halerts]

theorem alerts_step {app' : System} {e : Event} (hst : Steps customData app e app')
    (hkill : e ≠ .kill) (hback : e ≠ .back) :
    ∃ k, alerts customData app e = List.replicate k "Failed to store the score" ∧
      k + app'.failing = app.failing + e.failsWrite.toNat := by
  cases hst with
  | home hid _ _ hr hfx =>
    refine ⟨0, ?_, ?_⟩
    · rw [alerts, effects_home hid hr, alertOf_quiet hfx]
      rfl
    · rw [failing_put_home hid, Nat.zero_add]
      rfl
  | storeItem hid hr =>
    refine ⟨0, ?_, ?_⟩
    · rw [alerts, effects_home hid hr]
      rfl
    · rw [Nat.zero_add]
      exact failing_put_home hid _
  | login hid hr =>
    refine ⟨0, ?_, ?_⟩
    · rw [alerts, effects_home hid hr]
      rfl
    · rw [Nat.zero_add]
      exact (System.failing_push _ _).trans (failing_put_home hid _)
  | quiz hid hr => exact failing_put_quiz hid hr
  | storeFile hid hr => exact failing_put_quiz hid hr
  | leave hid hr =>
    obtain ⟨k, halerts, hk⟩ := failing_put_quiz hid hr
    exact ⟨k, halerts, by rw [System.failing_push]; exact hk⟩
  | unmount hid _ hr => exact failing_put_quiz hid hr
  | back => exact absurd rfl hback
  | kill => exact absurd rfl hkill

end Effects

namespace Told

variable {customData : Quiz.CustomData} {app app' : System} {shown : List String}
  {es : List Event} {e : Event}

theorem boot (storage : Storage) (file : Option JsString) : Told (boot storage file) [] [] where
  failed := rfl
  back := rfl
  only := by simp

theorem step (ht : Told app shown es) (hkill : e ≠ .kill) (hst : Steps customData app e app') :
    Told app' (shown ++ alerts customData app e) (es ++ [e]) := by
  by_cases hback : e = .back
  · subst hback
    cases hst
    have halerts : alerts customData app .back = ["Please Complete Quiz"] := rfl
    have hcount : List.countP Event.failsWrite [.back] = 0 := rfl
    rw [halerts]
    refine ⟨?_, ?_, ?_⟩
    · rw [List.countP_append, hcount, ← ht.failed]
      simp
    · simp [ht.back]
    · simpa [or_imp, forall_and] using ht.only
  · obtain ⟨k, halerts, hk⟩ := alerts_step hst hkill hback
    rw [halerts]
    refine ⟨?_, ?_, ?_⟩
    · have hfailed := ht.failed
      have hcount : List.countP Event.failsWrite [e] = e.failsWrite.toNat := by
        cases h : e.failsWrite <;> simp [h]
      rw [List.count_append, List.count_replicate_self, List.countP_append, hcount]
      omega
    · simp [List.count_append, List.count_replicate, ht.back, hback]
    · intro message hm
      rcases List.mem_append.mp hm with hm | hm
      · exact ht.only message hm
      · exact .inl (List.eq_of_mem_replicate hm)

end Told

/-- In every session each failed write of a score is reported to the user once, as soon as its
`catch` block has run, each press of Back during a quiz is answered, and no other alert is ever
shown. -/
theorem alerts_accounted {customData : Quiz.CustomData} {storage : Storage}
    {file : Option JsString} {es : List Event} {app : System} (hkill : .kill ∉ es)
    (hrun : (machine customData).run (boot storage file) es = some app) :
    Told app ((machine customData).log (alerts customData) (boot storage file) es) es := by
  apply Machine.run_induction (D := (· ≠ .kill)) (P := fun app es =>
    Told app ((machine customData).log (alerts customData) (boot storage file) es) es)
    (.boot storage file) ?_ (fun _ he heq => hkill (heq ▸ he)) hrun
  intro es e before after ht he hbefore hstep
  rw [Machine.log_snoc _ _ _ _ hbefore]
  exact ht.step he (steps_of_step hstep)

def lostScore : List Event :=
  onHome 0 (Home.typeEvents Home.ann ++ [.login]) ++ [.back] ++
    onQuiz 1 (Quiz.fullMarks.map .input ++ [.settle 0 false]) ++ [.back] ++ onQuiz 1 [.resume 0]

theorem lostScore_told : ∃ app, (machine Quiz.customData).run freshInstall lostScore = some app ∧
    app.failing = 0 ∧ Told app ["Please Complete Quiz", "Please Complete Quiz",
      "Failed to store the score"] lostScore := by
  have hend : ((machine Quiz.customData).run freshInstall lostScore).map System.failing = some 0 := by
    decide +kernel
  obtain ⟨app, hrun, hfailing⟩ := Option.map_eq_some_iff.mp hend
  have hlog : (machine Quiz.customData).log (alerts Quiz.customData) freshInstall lostScore =
      ["Please Complete Quiz", "Please Complete Quiz", "Failed to store the score"] := by
    decide +kernel
  have ht := alerts_accounted (by decide) hrun
  rw [← freshInstall, hlog] at ht
  exact ⟨app, hrun, hfailing, ht⟩

end QuizApp.App
