import QuizApp.Quiz.Data
import QuizApp.App.System

namespace QuizApp.App

open Js
open Home (ann typeEvents loadEvents)

def StringForm : Instance → Prop
  | .home h => h.state.Strings
  | .quiz _ => True

def Strings (app : System) : Prop := ∀ i ∈ app.instances, StringForm i

def NeverNull (app : System) (_ : List Unit) : Prop :=
  ∀ h, .home h ∈ app.instances → h.state.Strings ∧ ∃ r, Home.validate h.state = .ok r

/-- A `getData` that puts anything into the form puts four strings into it. -/
def LoadsWhole (app : System) (_ : List Unit) (e : Event) : Prop :=
  ∀ id h read, e = .home id .resumeLoad → app.instances[id]? = some (.home h) →
    h.loaded = some read → ∀ f, (read.get f).isSome

theorem strings_boot (storage : Storage) (file : Option JsString) :
    Strings (boot storage file) := by
  intro i hi
  cases List.mem_singleton.mp hi
  intro f
  simp

theorem Strings.neverNull {app : System} (hs : Strings app) (l : List Unit) : NeverNull app l := by
  intro h hmem
  exact ⟨hs _ hmem, (Home.validate_isOk_iff h.state).mpr (hs _ hmem)⟩

theorem Strings.step {customData : Quiz.CustomData} {app app' : System} {e : Event} {l : List Unit}
    (hs : Strings app) (hwhole : LoadsWhole app l e) (hst : Steps customData app e app') :
    Strings app' := by
  apply forall_instances_step hst (fun f => by simp) trivial ?_ (fun _ _ _ _ _ _ _ _ _ => trivial) hs
  rintro id h r e' fx rfl hid _ hr hstrings
  apply (hr.formStep.strings_iff hstrings).mpr
  rintro rfl read hread
  exact hwhole id h read rfl hid hread

theorem loadsWhole_of_neverNull {customData : Quiz.CustomData} {app app' : System} {e : Event}
    {l m : List Unit} (hs : Strings app) (hst : Steps customData app e app')
    (hnull : NeverNull app' m) : LoadsWhole app l e := by
  rintro id h read rfl hid hread
  cases hst with
  | home hid' _ _ hr _ =>
    cases hid.symm.trans hid'
    have hstrings := (hnull _ (System.mem_put_self hid)).1
    exact (hr.formStep.strings_iff (hs _ (List.mem_of_getElem? hid))).mp hstrings rfl read hread

/-- The form never holds `null`, and `validate` never throws, exactly in the runs in which
every `getData` that found a stored key found all four. -/
theorem neverNull_iff_loadsWhole (customData : Quiz.CustomData) (es : List Event) :
    (machine customData).Always Machine.unobserved NeverNull freshInstall es ↔
      (machine customData).Meets Machine.unobserved LoadsWhole freshInstall es :=
  Machine.always_iff_meets (K := fun app _ => Strings app) (strings_boot _ _)
    (fun _ _ _ _ hs hwhole hst => hs.step hwhole (steps_of_step hst))
    (fun _ l hs => hs.neverNull l)
    (fun _ _ _ _ hs hst hnull => loadsWhole_of_neverNull hs (steps_of_step hst) hnull) es

def interruptedSave : List Event :=
  onHome 0 (typeEvents ann) ++ onHome 0 [.login, .settleSave 0 true] ++ [.kill] ++
    onHome 0 (loadEvents ⟨some ann.firstName, none, none, none⟩)

theorem interrupted_save_loads_null :
    ¬ (machine Quiz.customData).Always Machine.unobserved NeverNull freshInstall interruptedSave := by
  intro h
  have hend : ((machine Quiz.customData).run freshInstall interruptedSave).map System.instances =
      some [.home { state := { values := ⟨some ann.firstName, none, none, none⟩ }, load := none }] := by
    decide +kernel
  obtain ⟨app, hrun, hinstances⟩ := Option.map_eq_some_iff.mp hend
  have hnull := h _ (List.prefix_refl _) app hrun
  have hlastName := (hnull _ (hinstances ▸ List.mem_singleton_self _)).1 .lastName
  revert hlastName
  decide

end QuizApp.App
