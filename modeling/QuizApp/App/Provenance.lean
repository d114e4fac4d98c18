import QuizApp.App.Pending
import QuizApp.App.Sessions

namespace QuizApp.App

open Js
open Home (Field Profile ann)

def typed (_ : System) : Event → List (Field × JsString)
  | .home _ (.edit f (some v)) => [(f, v)]
  | _ => []

def From (storage : Storage) (l : List (Field × JsString)) (f : Field) (value : Option JsString) :
    Prop :=
  ∀ v, value = some v → storage f.key = some v ∨ (f, v) ∈ l

def Instance.Sourced (storage : Storage) (l : List (Field × JsString)) : Instance → Prop
  | .home h => ∀ f : Field,
    h.state.values.get f = some [] ∨ From storage l f (h.state.values.get f)
  | .quiz _ => True

structure Sourced (storage : Storage) (app : System) (l : List (Field × JsString)) : Prop where
  keeps : app.Keeps (From storage l)
  forms : ∀ i ∈ app.instances, i.Sourced storage l
  frame : ∀ key, (∀ f : Field, key ≠ f.key) → app.storage key = storage key

section Step

variable {storage : Storage} {l m : List (Field × JsString)} {customData : Quiz.CustomData}
  {app app' : System} {e : Event}

theorem From.mono {f : Field} {value : Option JsString} (h : From storage l f value) :
    From storage (l ++ m) f value :=
  fun v hv => (h v hv).imp id (List.mem_append_left m)

theorem From.none (f : Field) : From storage l f none := by
  intro v hv
  cases hv

theorem From.of_mem {f : Field} {v : JsString} (h : (f, v) ∈ l) : From storage l f (some v) := by
  intro w hw
  cases hw
  exact .inr h

theorem keeps_loaded {P : Field → Option JsString → Prop} {h : Home.Instance} (hh : h.Keeps P)
    {read : Profile (Option JsString)} (hread : h.loaded = some read) (f : Field) :
    P f (read.get f) := by
  obtain ⟨point, value, hload, hresume, -⟩ := Home.Instance.loaded_eq_some hread
  obtain ⟨-, rfl⟩ := Home.GetData.resume_inr hresume
  exact hh.load _ hload f

theorem Sourced.boot (storage : Storage) (file : Option JsString) :
    Sourced storage (boot storage file) [] where
  keeps := .boot file From.none fun f v hv => .inl hv
  forms i hi := by
    cases List.mem_singleton.mp hi
    intro f
    simp
  frame _ _ := rfl

theorem Instance.Sourced.mono {i : Instance} (hi : i.Sourced storage l) :
    i.Sourced storage (l ++ m) := by
  cases i with
  | home h => exact fun f => (hi f).imp id From.mono
  | quiz q => trivial

theorem Instance.Sourced.form {h : Home.Instance} {e : Home.Event} {s : Home.State} {id : Nat}
    (hform : Home.FormStep h e s) (hh : h.Keeps (From storage l))
    (hvalues : (Instance.home h).Sourced storage l) (f : Field) :
    s.values.get f = some [] ∨
      From storage (l ++ typed app (.home id e)) f (s.values.get f) := by
  have hkept := hvalues.mono (m := typed app (.home id e)) f
  cases hform with
  | edit g v =>
    by_cases hfg : f = g
    · subst hfg
      refine .inr ?_
      simp only [Home.inputHandler, Profile.get_set_self]
      exact .of_mem (by simp [typed])
    · simpa [Home.inputHandler, hfg] using hkept
  | reject => exact hkept
  | load read hread => exact .inr (keeps_loaded hh hread f).mono
  | other _ _ hsame _ =>
    rw [hsame]
    exact hkept

theorem Sourced.step (hs : Sourced storage app l) (hst : Steps customData app e app') :
    Sourced storage app' (l ++ typed app e) where
  keeps := by
    refine (hs.keeps.imp fun _ _ => From.mono).step hst From.none ?_ ?_
    · intro h hh hvalid f
      rcases hs.forms _ hh f with hnil | hfrom
      · have hcheck := hvalid f
        rw [hnil, f.check_nil] at hcheck
        cases hcheck
      · exact hfrom.mono
    · rintro id h f v rfl - -
      exact .of_mem (by simp [typed])
  forms := by
    have hfresh : (Instance.home {}).Sourced storage (l ++ typed app e) := by
      intro f
      simp
    apply forall_instances_step hst hfresh trivial ?_ ?_ fun i hi => (hs.forms i hi).mono
    · rintro id h r e' fx rfl hid - hr -
      have hmem := List.mem_of_getElem? hid
      exact fun f => Instance.Sourced.form hr.formStep (hs.keeps.instances _ hmem) (hs.forms _ hmem) f
    · intro _ _ _ _ _ _ _ _ _
      trivial
  frame key hkey := by
    cases hst with
    | storeItem =>
      rw [← hs.frame key hkey]
      exact Function.update_of_ne (hkey _) _ _
    | _ => exact hs.frame key hkey

end Step

theorem mem_log_typed {customData : Quiz.CustomData} {app : System} {es : List Event} {f : Field}
    {v : JsString} (h : (f, v) ∈ (machine customData).log typed app es) :
    ∃ id, .home id (.edit f (some v)) ∈ es := by
  induction es generalizing app with
  | nil => cases h
  | cons e es ih =>
    rw [Machine.log, List.mem_append] at h
    rcases h with h | h
    · have he : ∃ id, e = .home id (.edit f (some v)) := by
        unfold typed at h
        split at h
        · cases List.mem_singleton.mp h
          exact ⟨_, rfl⟩
        · cases h
      obtain ⟨id, rfl⟩ := he
      exact ⟨id, List.mem_cons_self⟩
    · cases hstep : (machine customData).step app e with
      | none => simp [hstep] at h
      | some app' =>
        rw [hstep, Option.elim_some] at h
        obtain ⟨id, hid⟩ := ih h
        exact ⟨id, List.mem_cons_of_mem e hid⟩

/-- In every state of every run, a text under a key was there at first or has been typed into
the field of that key, and so has every text of a form that is not empty; nothing else in the
storage has changed. -/
theorem stored_texts_typed {customData : Quiz.CustomData} {storage : Storage}
    {file : Option JsString} {es : List Event} {app : System}
    (hrun : (machine customData).run (boot storage file) es = some app) :
    (∀ (f : Field) v, app.storage f.key = some v →
      storage f.key = some v ∨ ∃ id, .home id (.edit f (some v)) ∈ es) ∧
    (∀ h, .home h ∈ app.instances → ∀ (f : Field) v, h.state.values.get f = some v →
      v = [] ∨ storage f.key = some v ∨ ∃ id, .home id (.edit f (some v)) ∈ es) ∧
    ∀ key, (∀ f : Field, key ≠ f.key) → app.storage key = storage key := by
  have hs : Sourced storage app ((machine customData).log typed (boot storage file) es) :=
    Machine.run_invariant (.boot storage file) (fun _ _ _ _ hs hst => hs.step (steps_of_step hst)) hrun
  refine ⟨?_, ?_, hs.frame⟩
  · intro f v hv
    exact (hs.keeps.storage f v hv).imp id mem_log_typed
  · intro h hh f v hv
    rcases hs.forms _ hh f with hnil | hfrom
    · exact .inl (Option.some.inj (hv.symm.trans hnil))
    · exact .inr ((hfrom v hv).imp id mem_log_typed)

def savedLogin : List Event :=
  startQuiz ann ++ onHome 0 (Home.saveEvents (fun _ => false) Field.all)

theorem savedLogin_texts : ∃ app, (machine Quiz.customData).run freshInstall savedLogin = some app ∧
    ∀ f : Field, app.storage f.key = some (ann.get f) ∧
      ∃ id, .home id (.edit f (some (ann.get f))) ∈ savedLogin := by
  have hend : ((machine Quiz.customData).run freshInstall savedLogin).map
      (fun app => Field.all.map fun f => app.storage f.key) =
      some (Field.all.map fun f => some (ann.get f)) := by decide +kernel
  obtain ⟨app, hrun, hstorage⟩ := Option.map_eq_some_iff.mp hend
  obtain ⟨htexts, -, -⟩ := stored_texts_typed hrun
  refine ⟨app, hrun, fun f => ?_⟩
  have hf := List.map_inj_left.mp hstorage f f.mem_all
  exact ⟨hf, (htexts f _ hf).resolve_left (by simp)⟩

end QuizApp.App
