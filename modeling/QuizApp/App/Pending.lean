import QuizApp.Home.Pending
import QuizApp.App.Projection

namespace QuizApp.App

open Js
open Home (Field)

def Instance.Keeps (P : Field → Option JsString → Prop) : Instance → Prop
  | .home h => h.Keeps P
  | .quiz _ => True

structure System.Keeps (P : Field → Option JsString → Prop) (app : System) : Prop where
  storage : ∀ f : Field, P f (app.storage f.key)
  instances : ∀ i ∈ app.instances, i.Keeps P

namespace System.Keeps

variable {P Q : Field → Option JsString → Prop} {customData : Quiz.CustomData}
  {app app' : System} {e : Event}

theorem imp (hs : app.Keeps P) (himp : ∀ f v, P f v → Q f v) : app.Keeps Q where
  storage f := himp f _ (hs.storage f)
  instances i hi := by
    have hkeeps := hs.instances i hi
    cases i with
    | home h => exact Home.Instance.Keeps.imp hkeeps himp
    | quiz q => trivial

theorem boot {storage : Storage} (file : Option JsString) (hnone : ∀ f, P f none)
    (hst : ∀ f : Field, P f (storage f.key)) : (boot storage file).Keeps P where
  storage := hst
  instances i hi := by
    cases List.mem_singleton.mp hi
    exact Home.Instance.Keeps.fresh hnone

theorem setItem {storage : Storage} (hst : ∀ f : Field, P f (storage f.key)) {key : Field}
    {v : JsString} (hv : P key (some v)) (f : Field) : P f (storage.setItem key.key v f.key) := by
  by_cases hf : f = key
  · subst hf
    rwa [Storage.setItem, Function.update_self]
  · rw [Storage.setItem, Function.update_of_ne fun heq => hf (Home.Field.key_injective heq)]
    exact hst f

theorem step (hs : app.Keeps P) (hst : Steps customData app e app') (hnone : ∀ f, P f none)
    (hlogin : ∀ h, .home h ∈ app.instances →
      (∀ f : Field, f.check (h.state.values.get f) = .ok false) →
      ∀ f : Field, P f (h.state.values.get f))
    (hedit : ∀ id h f v, e = .home id (.edit f (some v)) → app.instances[id]? = some (.home h) →
      h.Ahead f → P f (some v)) : app'.Keeps P := by
  refine ⟨?_, ?_⟩
  · cases hst with
    | storeItem hid hr =>
      obtain ⟨hi, -⟩ := Home.reacts_storeItem hr
      have hh : Home.Instance.Keeps P _ := hs.instances _ (List.mem_of_getElem? hid)
      exact setItem hs.storage ((hh.saves _ (List.mem_of_getElem? hi)).value _ _ rfl)
    | _ => exact hs.storage
  · apply forall_instances_step hst (Home.Instance.Keeps.fresh hnone) trivial ?_ ?_ hs.instances
    · intro id h r e' fx he hid hhonest hr hh
      refine Home.Instance.Keeps.reacts hh hr (hlogin h (List.mem_of_getElem? hid)) ?_ ?_
      · rintro f v rfl hahead
        exact hedit id h f v he hid hahead
      · rintro point value hl rfl
        have hvalue : value = app.storage point.key.key := by simpa [honest, hl] using hhonest
        rw [hvalue]
        exact hs.storage point.key
    · intro _ _ _ _ _ _ _ _ _
      trivial

end System.Keeps

end QuizApp.App
