import QuizApp.Quiz.Grader
import QuizApp.App.Projection

namespace QuizApp.App

open Js
open Home (Field Profile ann)
open Quiz (Bank)

theorem System.put_eq_self {app : System} {id : Nat} {i : Instance}
    (hid : app.instances[id]? = some i) : app.put id i = app := by
  obtain ⟨hlt, heq⟩ := List.getElem?_eq_some_iff.mp hid
  rw [System.put, ← heq, List.set_getElem_self]

@[simp] theorem System.put_put (app : System) (id : Nat) (i j : Instance) :
    (app.put id i).put id j = app.put id j := by
  simp [System.put]

section Steps

variable {customData : Quiz.CustomData} {app : System} {id : Nat}

theorem step_input {q r : Quiz.Instance} {i : Quiz.Input} (hid : app.instances[id]? = some (.quiz q))
    (hstep : (Quiz.machine customData).step q (.input i) = some r) :
    step customData app (.quiz id (.input i)) = some (app.put id (.quiz r)) := by
  obtain ⟨fx, hr⟩ := (Quiz.step_iff customData q _ r).mp hstep
  have hreact := (Quiz.react_iff customData q _ r fx).mpr hr
  have hinert : performAll customData (app.put id (.quiz r)) fx = some (app.put id (.quiz r)) := by
    apply performAll_inert
    cases hr <;> simp [perform]
  simp [step, hid, hreact, hinert]

theorem run_inputs {q r : Quiz.Instance} {is : List Quiz.Input}
    (hid : app.instances[id]? = some (.quiz q))
    (hrun : (Quiz.machine customData).run q (is.map .input) = some r) :
    (machine customData).run app (onQuiz id (is.map .input)) = some (app.put id (.quiz r)) := by
  induction is generalizing app q with
  | nil =>
    cases hrun
    rw [System.put_eq_self hid]
    rfl
  | cons i is ih =>
    rw [List.map_cons, Machine.run, Option.bind_eq_some_iff] at hrun
    obtain ⟨p, hp, hrun⟩ := hrun
    have hstep : (machine customData).step app (.quiz id (.input i)) = some (app.put id (.quiz p)) :=
      step_input hid hp
    rw [onQuiz, List.map_cons, List.map_cons, Machine.run, hstep, Option.bind_some]
    have htail := ih (System.put_self hid) hrun
    rwa [System.put_put] at htail

theorem step_home_quiet {h r : Home.Instance} {e : Home.Event}
    (hid : app.instances[id]? = some (.home h)) (hhonest : honest app h e = true)
    (hcurrent : e = .unmount → id ≠ app.current) (hr : Home.Reacts h e r []) :
    step customData app (.home id e) = some (app.put id (.home r)) := by
  simp only [step, hid, (Home.react_iff _ _ _ _).mpr hr]
  rw [if_pos ⟨hhonest, hcurrent⟩]
  rfl

theorem step_edit {h : Home.Instance} (hid : app.instances[id]? = some (.home h))
    (hm : h.mounted = true) (f : Field) (v : JsString) :
    step customData app (.home id (.edit f (some v))) =
      some (app.put id (.home { h with state := Home.inputHandler f h.state (some v) })) :=
  step_home_quiet hid rfl (by simp) (.edit hm)

theorem run_edits {h : Home.Instance} (hid : app.instances[id]? = some (.home h))
    (hm : h.mounted = true) (texts : List (Field × JsString)) :
    (machine customData).run app (onHome id (texts.map fun (f, v) => .edit f (some v))) =
      some (app.put id (.home { h with
        state := texts.foldl (fun s (f, v) => Home.inputHandler f s (some v)) h.state })) := by
  induction texts generalizing app h with
  | nil => exact congrArg some (System.put_eq_self hid).symm
  | cons text texts ih =>
    obtain ⟨f, v⟩ := text
    let edited : Home.Instance := { h with state := Home.inputHandler f h.state (some v) }
    have hedit : (machine customData).step app (.home id (.edit f (some v))) =
        some (app.put id (.home edited)) := step_edit hid hm f v
    have htail := @ih (app.put id (.home edited)) edited (System.put_self hid) hm
    rw [System.put_put] at htail
    rw [onHome, List.map_cons, List.map_cons, Machine.run, hedit, Option.bind_some]
    exact htail

theorem run_typeEvents {h : Home.Instance} (hid : app.instances[id]? = some (.home h))
    (hm : h.mounted = true) (p : Profile JsString) :
    (machine customData).run app (onHome id (Home.typeEvents p)) =
      some (app.put id (.home { h with
        state := { h.state with values := p.some, errors := .replicate false } })) :=
  run_edits hid hm [(.firstName, p.firstName), (.lastName, p.lastName), (.nickName, p.nickName),
    (.age, p.age)]

def ofSave : Home.Event → Bool
  | .settleSave _ _ | .resumeSave _ => true
  | _ => false

theorem step_save {h r : Home.Instance} {e : Home.Event} {fx : List Effect}
    (hid : app.instances[id]? = some (.home h)) (he : ofSave e = true)
    (hr : Home.Reacts h e r fx) :
    step customData app (.home id e) =
      some { app.put id (.home r) with storage := fx.foldl Home.onStorage app.storage } := by
  have hreact := (Home.react_iff _ _ _ _).mpr hr
  cases hr with
  | storeItem => simp [step, hid, honest, hreact, performAll, perform, Home.onStorage, System.put]
  | failItem => simp [step, hid, honest, hreact, performAll, System.put]
  | saveNext => simp [step, hid, honest, hreact, performAll, System.put]
  | saveDone => simp [step, hid, honest, hreact, performAll, System.put]
  | saveFailed =>
    rw [Home.catchBlock_eq] at hreact ⊢
    simp [step, hid, honest, hreact, performAll, perform, Home.onStorage, System.put]
  | _ => cases he

theorem run_saves {h r : Home.Instance} {es : List Home.Event}
    (hid : app.instances[id]? = some (.home h)) (hes : ∀ e ∈ es, ofSave e = true)
    (hrun : Home.machine.run h es = some r) :
    (machine customData).run app (onHome id es) =
      some { app.put id (.home r) with
        storage := (Home.machine.log Home.effects h es).foldl Home.onStorage app.storage } := by
  induction es generalizing app h with
  | nil =>
    cases hrun
    rw [System.put_eq_self hid]
    rfl
  | cons e es ih =>
    rw [Machine.run, Option.bind_eq_some_iff] at hrun
    obtain ⟨p, hp, hrun⟩ := hrun
    obtain ⟨fx, hr⟩ := (Home.step_iff h e p).mp hp
    have hstep : (machine customData).step app (.home id e) = some _ :=
      step_save hid (hes e List.mem_cons_self) hr
    have heffects : Home.effects h e = fx := by simp [Home.effects, Home.react_of_reacts hr]
    rw [onHome, List.map_cons, Machine.run, hstep, Option.bind_some]
    have htail := @ih { app.put id (.home p) with storage := fx.foldl Home.onStorage app.storage } p
      (System.put_self hid) (fun e he => hes e (List.mem_cons_of_mem _ he)) hrun
    rw [onHome] at htail
    rw [htail, Machine.log, hp, Option.elim_some, heffects, List.foldl_append]
    simp [System.put]

theorem step_login {h : Home.Instance} {s : Quiz.State}
    (hid : app.instances[id]? = some (.home h)) (hmounted : h.mounted = true)
    (hvalid : ∀ f : Field, f.check (h.state.values.get f) = .ok false)
    (hs : Quiz.mount customData = .ok s) :
    step customData app (.home id .login) =
      some { (app.put id (.home { h with saves := h.saves ++ [Home.setData h.state] })).push
          (.quiz { state := s }) with handlers := Quiz.componentDidMount app.handlers } := by
  have hreact := (Home.react_iff _ _ _ _).mpr (.accepted hmounted hvalid)
  simp [step, hid, honest, hreact, performAll, perform, hs, System.put]

end Steps

def startQuiz (p : Profile JsString) : List Event :=
  .kill :: onHome 0 (Home.typeEvents p ++ [.login])

variable {N : Nat} (b : Bank N) (app : System) {p : Profile JsString}

theorem run_typed (p : Profile JsString) :
    (machine b.customData).run app (.kill :: onHome 0 (Home.typeEvents p)) =
      some ((boot app.storage app.file).put 0 (.home { state := { values := p.some } })) := rfl

theorem run_startQuiz (hvalid : ∀ f : Field, f.check (p.some.get f) = .ok false) :
    (machine b.customData).run app (startQuiz p) =
      some
        { storage := app.storage
          file := app.file
          instances := [.home { state := { values := p.some },
                                saves := [Home.setData { values := p.some }] },
            .quiz (.fresh b.customData)]
          current := 1
          handlers := Quiz.componentDidMount [] } := by
  let typed : Home.Instance := { state := { values := p.some } }
  have hid : ((boot app.storage app.file).put 0 (.home typed)).instances[0]? = some (.home typed) :=
    rfl
  have hlogin : (machine b.customData).step ((boot app.storage app.file).put 0 (.home typed))
      (.home 0 .login) = some _ := step_login hid rfl hvalid b.mount_eq
  have hrun := (Machine.run_snoc _ _ _ _ _).mpr ⟨_, run_typed b app p, hlogin⟩
  exact hrun

theorem ann_valid : ∀ f : Field, f.check (ann.some.get f) = .ok false := by
  intro f
  cases f <;> decide

end QuizApp.App
