import QuizApp.App.Scores
import QuizApp.App.Strings

namespace QuizApp.App

open Js
open Quiz (Bank IsMark)

def Instance.isMounted : Instance → Bool
  | .home h => h.mounted
  | .quiz q => q.mounted

def CurrentMounted (app : System) : Prop :=
  ∃ i, app.instances[app.current]? = some i ∧ i.isMounted = true

namespace CurrentMounted

variable {customData : Quiz.CustomData} {app app' : System} {id : Nat}

theorem put (hc : CurrentMounted app) {i j : Instance} (hid : app.instances[id]? = some i)
    (hj : id = app.current → j.isMounted = i.isMounted) : CurrentMounted (app.put id j) := by
  obtain ⟨k, hk, hm⟩ := hc
  by_cases hcurrent : id = app.current
  · subst hcurrent
    cases hid.symm.trans hk
    exact ⟨j, System.put_self hid, (hj rfl).trans hm⟩
  · exact ⟨k, (System.put_of_ne app j (Ne.symm hcurrent)).trans hk, hm⟩

theorem push (app : System) {i : Instance} (hi : i.isMounted = true) :
    CurrentMounted (app.push i) := ⟨i, System.push_current app i, hi⟩

theorem step {e : Event} (hc : CurrentMounted app) (hst : Steps customData app e app') :
    CurrentMounted app' := by
  cases hst with
  | home hid _ hunmount hr =>
    exact hc.put hid fun hid => mounted_of_home hr fun he => hunmount he hid
  | storeItem hid hr => exact hc.put hid fun _ => mounted_of_home hr (by simp)
  | login => exact push _ rfl
  | quiz hid hr _ hunmount => exact hc.put hid fun _ => mounted_of_quiz hr hunmount
  | storeFile hid hr => exact hc.put hid fun _ => mounted_of_quiz hr (by simp)
  | leave => exact push _ rfl
  | unmount hid hne => exact hc.put hid fun heq => absurd heq hne
  | back => exact hc
  | kill => exact ⟨.home {}, rfl, rfl⟩

theorem of_run {storage : Storage} {file : Option JsString} {es : List Event}
    (hrun : (machine customData).run (boot storage file) es = some app) : CurrentMounted app :=
  @Machine.run_invariant _ _ Unit (machine customData) Machine.unobserved
    (fun app _ => CurrentMounted app) _ ⟨.home {}, rfl, rfl⟩
    (fun _ _ _ _ hc hst => hc.step (steps_of_step hst)) _ _ hrun

end CurrentMounted

section Continuation

variable {customData : Quiz.CustomData} {app : System} {id : Nat} {q : Quiz.Instance}

theorem exists_left (customData : Quiz.CustomData) {m : Nat} {ok : Bool} (hid : app.instances[id]? = some (.quiz q))
    (hm : q.writes[m]? = some (.settled ok)) :
    ∃ app', (machine customData).step app (.quiz id (.resume m)) = some app' ∧
      app'.instances[app'.current]? = some (.home {}) :=
  ⟨_, step_leave hid hm, System.push_current _ _⟩

theorem exists_home (hid : app.instances[id]? = some (.quiz q)) (hwrites : q.writes ≠ []) :
    ∃ es app', .kill ∉ es ∧ (machine customData).run app es = some app' ∧
      app'.instances[app'.current]? = some (.home {}) := by
  obtain ⟨w, ws, hw⟩ := List.exists_cons_of_ne_nil hwrites
  cases w with
  | settled ok =>
    have hsettled : q.writes[0]? = some (.settled ok) := by simp [hw]
    obtain ⟨app', hleave, hhome⟩ := exists_left customData hid hsettled
    refine ⟨[.quiz id (.resume 0)], app', by simp, ?_, hhome⟩
    rw [Machine.run, hleave]
    rfl
  | calling content =>
    let settled : Quiz.Instance := { q with writes := q.writes.set 0 (.settled true) }
    let stored : System := { app.put id (.quiz settled) with file := some content }
    have hstore : (machine customData).step app (.quiz id (.settle 0 true)) = some stored :=
      step_store hid (by simp [hw])
    have hid' : stored.instances[id]? = some (.quiz settled) := System.put_self hid
    have hsettled : settled.writes[0]? = some (.settled true) := by simp [settled, hw]
    obtain ⟨app', hleave, hhome⟩ := exists_left customData hid' hsettled
    refine ⟨[.quiz id (.settle 0 true), .quiz id (.resume 0)], app', by simp, ?_, hhome⟩
    rw [Machine.run, hstore, Option.bind_some, Machine.run, hleave]
    rfl

theorem exists_finished {N : Nat} {b : Bank N} (hid : app.instances[id]? = some (.quiz q))
    (hreached : Reached b.customData (.quiz q)) (hm : q.mounted = true) :
    ∃ es app', .kill ∉ es ∧ (machine b.customData).run app es = some app' ∧
      app'.instances[app'.current]? = some (.home {}) := by
  obtain ⟨es, hes⟩ := hreached
  obtain ⟨t, -, ht⟩ := Quiz.exists_tallied b hes
  obtain ⟨is, r, hrun, hwrites⟩ := Quiz.exists_submitted ht hm
  obtain ⟨fs, app', hkill, hfs, hhome⟩ := exists_home (System.put_self hid) hwrites
  refine ⟨onQuiz id (is.map .input) ++ fs, app', ?_, ?_, hhome⟩
  · simp [onQuiz, hkill]
  · rw [Machine.run_append, run_inputs hid hrun, Option.bind_some, hfs]

end Continuation

/-- From every state of every run the user can get to a quiz and bring each score that a
submission can have on display, without a restart. -/
theorem never_stuck {N : Nat} (b : Bank N) {storage : Storage} {file : Option JsString}
    {es : List Event} {app : System}
    (hrun : (machine b.customData).run (boot storage file) es = some app) {content : JsString}
    (hmark : IsMark b content) :
    ∃ fs app' h, .kill ∉ fs ∧ (machine b.customData).run app fs = some app' ∧
      app'.instances[app'.current]? = some (.home h) ∧ h.mounted = true ∧
      app'.file = some content ∧ h.state.scoreExists = true ∧ h.state.score = content := by
  obtain ⟨i, hi, hm⟩ := CurrentMounted.of_run hrun
  cases i with
  | home h => exact exists_display b hi hm hmark
  | quiz q =>
    have hreached := instances_reached hrun _ (List.mem_of_getElem? hi)
    obtain ⟨es, left, hkill, hes, hhome⟩ := exists_finished hi hreached hm
    obtain ⟨fs, app', h, hkill', hfs, hshown⟩ := exists_display b hhome rfl hmark
    refine ⟨es ++ fs, app', h, ?_, ?_, hshown⟩
    · simp [hkill, hkill']
    · rw [Machine.run_append, hes, Option.bind_some, hfs]

theorem interruptedSave_never_stuck : ∃ app,
    (machine Quiz.customData).run freshInstall interruptedSave = some app ∧
    ∀ n, ∃ fs app' h, .kill ∉ fs ∧ (machine Quiz.customData).run app fs = some app' ∧
      app'.instances[app'.current]? = some (.home h) ∧ h.mounted = true ∧
      app'.file = some (numeral n) ∧ h.state.scoreExists = true ∧ h.state.score = numeral n := by
  have hend : ((machine Quiz.customData).run freshInstall interruptedSave).isSome := by decide +kernel
  obtain ⟨app, hrun⟩ := Option.isSome_iff_exists.mp hend
  exact ⟨app, hrun, fun n => never_stuck Quiz.bank hrun (isMark_numeral n)⟩

end QuizApp.App
