import QuizApp.Machine.Measure
import QuizApp.Machine.Refine
import QuizApp.App.RoundTrip

namespace QuizApp.App

open Js
open Machine (total)

def Instance.homes : Instance → Nat
  | .home _ => 1
  | .quiz _ => 0

def Instance.quizzes : Instance → Nat
  | .home _ => 0
  | .quiz _ => 1

def Instance.writing : Instance → Nat
  | .home _ => 0
  | .quiz q => q.writes.length

def Instance.saving : Instance → Nat
  | .home h => h.saves.length
  | .quiz _ => 0

/-- The numbers of screens and of calls under way after `logins` accepted logins and
`submits` submissions. -/
structure Balanced (app : System) (logins submits : Nat) : Prop where
  quizzes : total Instance.quizzes app.instances = logins
  homes : total Instance.homes app.instances + total Instance.writing app.instances = submits + 1
  saving : total Instance.saving app.instances ≤ logins

namespace Balanced

variable {customData : Quiz.CustomData} {app app' : System} {logins submits id : Nat}

theorem boot (storage : Storage) (file : Option JsString) : Balanced (boot storage file) 0 0 :=
  ⟨rfl, rfl, Nat.le_refl 0⟩

theorem of_instances (hb : Balanced app logins submits) (h : app'.instances = app.instances) :
    Balanced app' logins submits := by
  obtain ⟨hquizzes, hhomes, hsaving⟩ := hb
  rw [← h] at hquizzes hhomes hsaving
  exact ⟨hquizzes, hhomes, hsaving⟩

theorem put_home (hb : Balanced app logins submits) {h r : Home.Instance}
    (hid : app.instances[id]? = some (.home h)) {n : Nat}
    (hsaves : r.saves.length ≤ h.saves.length + n) :
    total Instance.quizzes (app.put id (.home r)).instances = logins ∧
      total Instance.homes (app.put id (.home r)).instances +
        total Instance.writing (app.put id (.home r)).instances = submits + 1 ∧
      total Instance.saving (app.put id (.home r)).instances ≤ logins + n := by
  have hset := fun μ => Machine.total_set (μ := μ) hid (.home r)
  have hquizzes := hset Instance.quizzes
  have hhomes := hset Instance.homes
  have hwriting := hset Instance.writing
  have hsaving := hset Instance.saving
  obtain ⟨hbq, hbh, hbs⟩ := hb
  simp only [Instance.quizzes, Instance.homes, Instance.writing, Instance.saving] at *
  simp only [System.put]
  omega

theorem put_quiz (hb : Balanced app logins submits) {q r : Quiz.Instance}
    (hid : app.instances[id]? = some (.quiz q)) :
    total Instance.quizzes (app.put id (.quiz r)).instances = logins ∧
      total Instance.homes (app.put id (.quiz r)).instances +
          total Instance.writing (app.put id (.quiz r)).instances + q.writes.length =
        submits + 1 + r.writes.length ∧
      total Instance.saving (app.put id (.quiz r)).instances ≤ logins := by
  have hset := fun μ => Machine.total_set (μ := μ) hid (.quiz r)
  have hquizzes := hset Instance.quizzes
  have hhomes := hset Instance.homes
  have hwriting := hset Instance.writing
  have hsaving := hset Instance.saving
  obtain ⟨hbq, hbh, hbs⟩ := hb
  simp only [Instance.quizzes, Instance.homes, Instance.writing, Instance.saving] at *
  simp only [System.put]
  omega

theorem home (hb : Balanced app logins submits) {h r : Home.Instance}
    (hid : app.instances[id]? = some (.home h)) (hsaves : r.saves.length ≤ h.saves.length) :
    Balanced (app.put id (.home r)) logins submits := by
  obtain ⟨hquizzes, hhomes, hsaving⟩ := hb.put_home (n := 0) hid hsaves
  exact ⟨hquizzes, hhomes, hsaving⟩

theorem login (hb : Balanced app logins submits) {h : Home.Instance} {s : Quiz.State}
    (hid : app.instances[id]? = some (.home h)) :
    Balanced ((app.put id (.home { h with saves := h.saves ++ [Home.setData h.state] })).push
      (.quiz { state := s })) (logins + 1) submits := by
  have hsaves : (h.saves ++ [Home.setData h.state]).length ≤ h.saves.length + 1 := by simp
  obtain ⟨hquizzes, hhomes, hsaving⟩ :=
    hb.put_home (r := { h with saves := h.saves ++ [Home.setData h.state] }) hid hsaves
  refine ⟨?_, ?_, ?_⟩ <;>
    simp only [System.push, Machine.total_append, Machine.total_cons, Machine.total_nil,
      Instance.quizzes, Instance.homes, Instance.writing, Instance.saving, List.length_nil] <;> omega

theorem quiz (hb : Balanced app logins submits) {q r : Quiz.Instance}
    (hid : app.instances[id]? = some (.quiz q)) {n : Nat}
    (hwrites : r.writes.length = q.writes.length + n) :
    Balanced (app.put id (.quiz r)) logins (submits + n) := by
  obtain ⟨hquizzes, hhomes, hsaving⟩ := hb.put_quiz (r := r) hid
  exact ⟨hquizzes, by omega, hsaving⟩

theorem leave (hb : Balanced app logins submits) {q : Quiz.Instance} {i : Nat}
    (hid : app.instances[id]? = some (.quiz q)) (hi : i < q.writes.length) :
    Balanced ((app.put id (.quiz { q with writes := q.writes.eraseIdx i })).push (.home {})) logins
      submits := by
  obtain ⟨hquizzes, hhomes, hsaving⟩ :=
    hb.put_quiz (r := { q with writes := q.writes.eraseIdx i }) hid
  simp only [List.length_eraseIdx_of_lt hi] at hhomes
  refine ⟨?_, ?_, ?_⟩ <;>
    simp only [System.push, Machine.total_append, Machine.total_cons, Machine.total_nil,
      Instance.quizzes, Instance.homes, Instance.writing, Instance.saving, List.length_nil] <;> omega

theorem step {e : Event} (hb : Balanced app logins submits) (he : e ≠ .kill)
    (hst : Steps customData app e app') :
    Balanced app' (logins + (accepted app e).length) (submits + (submissions app e).length) := by
  cases hst with
  | home hid _ _ hr hfx =>
    rw [accepted_of_quiet hid hr hfx]
    apply hb.home hid
    cases hr with
    | accepted => simp at hfx
    | _ => simp [List.length_eraseIdx_le]
  | storeItem hid hr =>
    have hsaves := congrArg (fun g => List.length (Home.Instance.saves g)) (Home.reacts_storeItem hr).2
    exact (hb.home hid (by simp [hsaves])).of_instances rfl
  | login hid hr =>
    cases hr with
    | accepted _ hvalid =>
      rw [accepted_of_valid hid hvalid]
      exact (hb.login hid).of_instances rfl
  | @quiz id q r e fx hid hr hfx hunmount =>
    have hresume := ne_resume_of_reacts hr hfx
    rw [accepted_quiz]
    cases hr with
    | tap => exact hb.quiz (n := 0) hid rfl
    | next _ _ _ hlast =>
      have hnone : submissions app (.quiz id (.input .press)) = [] := by
        simp [submissions, hid, hlast]
      rw [hnone]
      exact hb.quiz (n := 0) hid rfl
    | submit _ _ _ hlast =>
      have hone : submissions app (.quiz id (.input .press)) = [id] := by
        simp [submissions, hid, hlast]
      rw [hone]
      exact hb.quiz (n := 1) hid List.length_append
    | settle => exact hb.quiz (n := 0) hid List.length_set
    | resume => exact absurd rfl (hresume _)
    | unmount => exact absurd rfl hunmount
  | storeFile hid hr =>
    generalize hfx : [Effect.storeFile _] = fx at hr
    cases hr with
    | settle => exact (hb.quiz (n := 0) hid List.length_set).of_instances rfl
  | leave hid hr =>
    cases hr with
    | resume hi => exact hb.leave hid (List.getElem?_eq_some_iff.mp hi).1
  | @unmount _ q _ hid _ hr =>
    cases hr
    exact (hb.quiz (n := 0) (r := { q with mounted := false }) hid rfl).of_instances rfl
  | back => exact hb
  | kill => exact absurd rfl he

end Balanced

/-- In every state of a session, whatever the order of the calls and continuations and whichever
of them fail, there is one quiz for each accepted login, and for each submission the call under
way or the `HomeScreen` it has led to. -/
theorem screens_balanced {customData : Quiz.CustomData} {storage : Storage}
    {file : Option JsString} {es : List Event} {app : System} (hkill : .kill ∉ es)
    (hrun : (machine customData).run (boot storage file) es = some app) :
    Balanced app ((machine customData).log accepted (boot storage file) es).length
      ((machine customData).log submissions (boot storage file) es).length := by
  apply Machine.run_induction (D := (· ≠ .kill)) (P := fun app es =>
    Balanced app ((machine customData).log accepted (boot storage file) es).length
      ((machine customData).log submissions (boot storage file) es).length)
    (.boot storage file) ?_ (fun _ he heq => hkill (heq ▸ he)) hrun
  intro es e before after hb he hbefore hstep
  rw [Machine.log_snoc _ _ _ _ hbefore, Machine.log_snoc _ _ _ _ hbefore, List.length_append,
    List.length_append]
  exact hb.step he (steps_of_step hstep)

theorem oneQuiz_balanced : ∃ app, (machine Quiz.customData).run freshInstall oneQuiz = some app ∧
    Balanced app 1 1 := by
  have hend : ((machine Quiz.customData).run freshInstall oneQuiz).isSome := by decide +kernel
  obtain ⟨app, hrun⟩ := Option.isSome_iff_exists.mp hend
  have hlogins : (machine Quiz.customData).log accepted freshInstall oneQuiz = [Home.ann.some] := by
    decide +kernel
  have hsubmits : (machine Quiz.customData).log submissions freshInstall oneQuiz = [1] := by
    decide +kernel
  have hb := screens_balanced (by decide) hrun
  rw [← freshInstall, hlogins, hsubmits] at hb
  exact ⟨app, hrun, hb⟩

end QuizApp.App
