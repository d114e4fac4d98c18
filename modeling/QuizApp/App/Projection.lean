import QuizApp.App.System

namespace QuizApp.App

def Reached (customData : Quiz.CustomData) : Instance → Prop
  | .home h => ∃ es, Home.machine.run {} es = some h
  | .quiz q => ∃ es, (Quiz.machine customData).run (.fresh customData) es = some q

theorem mounted_of_home {h r : Home.Instance} {e : Home.Event} {fx : List Effect}
    (hr : Home.Reacts h e r fx) (he : e ≠ .unmount) : r.mounted = h.mounted := by
  cases hr with
  | loadDone | readDone =>
    simp only [Home.Instance.setState]
    split <;> rfl
  | unmount => exact absurd rfl he
  | _ => rfl

theorem mounted_of_quiz {customData : Quiz.CustomData} {q r : Quiz.Instance} {e : Quiz.Event} {fx : List Effect}
    (hr : Quiz.Reacts customData q e r fx) (he : e ≠ .unmount) : r.mounted = q.mounted := by
  cases hr with
  | unmount => exact absurd rfl he
  | _ => rfl

theorem reached_home {customData : Quiz.CustomData} {h r : Home.Instance} {e : Home.Event}
    {fx : List Effect} (hreached : Reached customData (.home h)) (hr : Home.Reacts h e r fx) :
    Reached customData (.home r) := by
  obtain ⟨es, hes⟩ := hreached
  exact ⟨es ++ [e], (Machine.run_snoc _ _ _ _ _).mpr ⟨h, hes, (Home.step_iff h e r).mpr ⟨fx, hr⟩⟩⟩

theorem reached_quiz {customData : Quiz.CustomData} {q r : Quiz.Instance} {e : Quiz.Event}
    {fx : List Effect} (hreached : Reached customData (.quiz q))
    (hr : Quiz.Reacts customData q e r fx) : Reached customData (.quiz r) := by
  obtain ⟨es, hes⟩ := hreached
  exact ⟨es ++ [e], (Machine.run_snoc _ _ _ _ _).mpr
    ⟨q, hes, (Quiz.step_iff customData q e r).mpr ⟨fx, hr⟩⟩⟩

theorem reached_boot {customData : Quiz.CustomData} (storage : Storage) (file : Option Js.JsString) :
    ∀ i ∈ (boot storage file).instances, Reached customData i := by
  intro i hi
  cases List.mem_singleton.mp hi
  exact ⟨[], rfl⟩

theorem reached_step {customData : Quiz.CustomData} {app app' : System} {e : Event}
    (h : ∀ i ∈ app.instances, Reached customData i) (hst : Steps customData app e app') :
    ∀ i ∈ app'.instances, Reached customData i := by
  apply forall_instances_step hst ⟨[], rfl⟩ ⟨[], rfl⟩ ?_ ?_ h
  · intro _ _ _ _ _ _ _ _ hr hreached
    exact reached_home hreached hr
  · intro _ _ _ _ _ _ _ hr hreached
    exact reached_quiz hreached hr

theorem instances_reached {customData : Quiz.CustomData} {storage : Storage}
    {file : Option Js.JsString} {es : List Event} {app : System}
    (hrun : (machine customData).run (boot storage file) es = some app) :
    ∀ i ∈ app.instances, Reached customData i :=
  @Machine.run_invariant _ _ Unit (machine customData) Machine.unobserved
    (fun app _ => ∀ i ∈ app.instances, Reached customData i) _ (reached_boot storage file)
    (fun _ _ _ _ h hst => reached_step h (steps_of_step hst)) _ _ hrun

end QuizApp.App
