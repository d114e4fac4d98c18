import Mathlib.Data.List.InsertIdx
import Mathlib.Logic.Equiv.Basic
import QuizApp.Home.Save

namespace QuizApp.Home

open Js

/-- A change of the texts under each key that `validate` does not notice. -/
structure Renaming where
  text : String → JsString → JsString
  text_nil : ∀ f : Field, text f.key [] = []
  check_text : ∀ (f : Field) (v : JsString), f.check (some (text f.key v)) = f.check (some v)

namespace Renaming

variable (φ : Renaming)

def value (f : Field) : Option JsString → Option JsString := Option.map (φ.text f.key)

def profile (p : Profile (Option JsString)) : Profile (Option JsString) where
  firstName := φ.value .firstName p.firstName
  lastName := φ.value .lastName p.lastName
  nickName := φ.value .nickName p.nickName
  age := φ.value .age p.age

def state (s : State) : State := { s with values := φ.profile s.values }

def save : SetData → SetData
  | .calling key value => .calling key (φ.value key value)
  | .settled key ok => .settled key ok

def point : GetData → GetData
  | .firstName => .firstName
  | .lastName firstNameValue => .lastName (φ.value .firstName firstNameValue)
  | .nickName firstNameValue lastNameValue =>
    .nickName (φ.value .firstName firstNameValue) (φ.value .lastName lastNameValue)
  | .age firstNameValue lastNameValue nickNameValue =>
    .age (φ.value .firstName firstNameValue) (φ.value .lastName lastNameValue)
      (φ.value .nickName nickNameValue)

def reply (f : Field) : Reply (Option JsString) → Reply (Option JsString)
  | .fulfilled value => .fulfilled (φ.value f value)
  | .rejected => .rejected

def load : Load → Load
  | .calling point => .calling (φ.point point)
  | .settled point reply => .settled (φ.point point) (φ.reply point.key reply)

def home (h : Instance) : Instance :=
  { h with state := φ.state h.state, saves := h.saves.map φ.save, load := h.load.map φ.load }

def event (h : Instance) : Event → Event
  | .edit f val => .edit f (φ.value f val)
  | .settleLoad reply =>
    match h.load with
    | some (.calling point) => .settleLoad (φ.reply point.key reply)
    | _ => .settleLoad reply
  | e => e

def effect : Effect → Effect
  | .storeItem key value => .storeItem key (φ.text key value)
  | x => x

@[simp] theorem get_profile (p : Profile (Option JsString)) (f : Field) :
    (φ.profile p).get f = φ.value f (p.get f) := by cases f <;> rfl

@[simp] theorem check_value (f : Field) (v : Option JsString) :
    f.check (φ.value f v) = f.check v := by
  cases v with
  | none => rfl
  | some v => exact φ.check_text f v

theorem profile_set (p : Profile (Option JsString)) (f : Field) (v : Option JsString) :
    φ.profile (p.set f v) = (φ.profile p).set f (φ.value f v) := by cases f <;> rfl

theorem state_initial : φ.state {} = {} := by
  have hvalues : φ.profile (.replicate (some [])) = .replicate (some []) := by
    apply Profile.ext_get
    intro f
    rw [get_profile, Profile.get_replicate, value, Option.map_some, φ.text_nil]
  simp [state, hvalues]

theorem home_initial : φ.home {} = {} := by
  simp only [home, state_initial]
  rfl

theorem inputHandler_state (f : Field) (s : State) (val : Option JsString) :
    inputHandler f (φ.state s) (φ.value f val) = φ.state (inputHandler f s val) := by
  cases val with
  | none => rfl
  | some v =>
    simp only [value, Option.map_some, inputHandler, state, profile_set]

@[simp] theorem key_point (point : GetData) : (φ.point point).key = point.key := by
  cases point <;> rfl

theorem resume_point (point : GetData) (v : Option JsString) :
    (φ.point point).resume (φ.value point.key v) = (point.resume v).map φ.point φ.profile := by
  cases point <;> rfl

theorem found_profile (read : Profile (Option JsString)) : Found (φ.profile read) ↔ Found read := by
  simp [Found, profile, value]

theorem load_state (s : State) (read : Profile (Option JsString)) :
    (φ.state s).load (φ.profile read) = φ.state (s.load read) := by
  simp only [State.load, found_profile]
  split <;> rfl

theorem setState_home (h : Instance) (s : State) :
    (φ.home h).setState (φ.state s) = φ.home (h.setState s) := by
  cases hm : h.mounted <;> simp [Instance.setState, home, hm]

theorem effect_catchBlock (message : String) :
    (catchBlock message).map φ.effect = catchBlock message := by
  rw [catchBlock_eq]
  rfl

theorem getElem?_saves {h : Instance} {i : Nat} {s : SetData} (hi : h.saves[i]? = some s) :
    (φ.home h).saves[i]? = some (φ.save s) := by
  simp [home, hi]

theorem load_home {h : Instance} {l : Load} (hl : h.load = some l) :
    (φ.home h).load = some (φ.load l) := by
  simp [home, hl]

theorem home_set (h : Instance) (i : Nat) (s : SetData) :
    φ.home { h with saves := h.saves.set i s } =
      { φ.home h with saves := (φ.home h).saves.set i (φ.save s) } := by
  simp [home, List.map_set]

theorem home_eraseIdx (h : Instance) (i : Nat) :
    φ.home { h with saves := h.saves.eraseIdx i } =
      { φ.home h with saves := (φ.home h).saves.eraseIdx i } := by
  simp [home, List.eraseIdx_map]

theorem check_home (h : Instance) (f : Field) :
    f.check ((φ.home h).state.values.get f) = f.check (h.state.values.get f) := by
  simp [home, state]

variable {φ} {h r : Instance} {e : Event} {fx : List Effect}

theorem reacts_accepted (hm : h.mounted = true)
    (hf : ∀ f : Field, f.check (h.state.values.get f) = .ok false) :
    Reacts (φ.home h) .login (φ.home { h with saves := h.saves ++ [setData h.state] })
      [.replace .quizScreen] := by
  have hstep := @Reacts.accepted (φ.home h) hm fun f => (φ.check_home h f).trans (hf f)
  simpa [home, save, setData, state, profile] using hstep

theorem reacts_loadNext {point next : GetData} {v : Option JsString}
    (hl : h.load = some (.settled point (.fulfilled v))) (hp : point.resume v = .inl next) :
    Reacts (φ.home h) .resumeLoad (φ.home { h with load := some (.calling next) }) [] := by
  have hnext : (φ.point point).resume (φ.value point.key v) = .inl (φ.point next) := by
    rw [resume_point, hp]
    rfl
  exact .loadNext (load_home φ hl) hnext

theorem reacts_loadDone {point : GetData} {v : Option JsString} {read : Profile (Option JsString)}
    (hl : h.load = some (.settled point (.fulfilled v))) (hp : point.resume v = .inr read) :
    Reacts (φ.home h) .resumeLoad (φ.home { h.setState (h.state.load read) with load := none })
      [] := by
  have hread : (φ.point point).resume (φ.value point.key v) = .inr (φ.profile read) := by
    rw [resume_point, hp]
    rfl
  have hstep := Reacts.loadDone (load_home φ hl) hread
  rw [show (φ.home h).state = φ.state h.state from rfl, load_state, setState_home] at hstep
  exact hstep

theorem reacts (hr : Reacts h e r fx) :
    Reacts (φ.home h) (φ.event h e) (φ.home r) (fx.map φ.effect) := by
  cases hr with
  | @edit f val hm =>
    have hstep := @Reacts.edit (φ.home h) f (φ.value f val) hm
    rw [show (φ.home h).state = φ.state h.state from rfl, inputHandler_state] at hstep
    exact hstep
  | rejected hm hf hfault =>
    exact .rejected hm (fun f => (φ.check_home h f).trans (hf f)) hfault
  | accepted hm hf => exact reacts_accepted hm hf
  | storeItem hi =>
    rw [home_set]
    exact .storeItem (getElem?_saves φ hi)
  | failItem hi =>
    rw [home_set]
    exact .failItem (getElem?_saves φ hi)
  | saveNext hi hnext =>
    rw [home_set, save, ← get_profile]
    exact .saveNext (getElem?_saves φ hi) hnext
  | saveDone hi hnext =>
    rw [home_eraseIdx]
    exact .saveDone (getElem?_saves φ hi) hnext
  | saveFailed hi =>
    rw [home_eraseIdx, effect_catchBlock]
    exact .saveFailed (getElem?_saves φ hi)
  | @settleLoad point reply hl =>
    have hevent : φ.event h (.settleLoad reply) = .settleLoad (φ.reply point.key reply) := by
      simp only [event, hl]
    rw [hevent]
    exact .settleLoad (load_home φ hl)
  | loadNext hl hp => exact reacts_loadNext hl hp
  | loadDone hl hp => exact reacts_loadDone hl hp
  | loadFailed hl =>
    rw [effect_catchBlock]
    exact .loadFailed (load_home φ hl)
  | settleExists hs => exact .settleExists hs
  | settleRead hs => exact .settleRead hs
  | checked hs => exact .checked hs
  | @readDone fileData hs =>
    have hstep := @Reacts.readDone (φ.home h) fileData hs
    have hstate : { (φ.home h).state with scoreExists := true, score := fileData } =
        φ.state { h.state with scoreExists := true, score := fileData } := rfl
    rw [hstate, setState_home] at hstep
    exact hstep
  | readFailed hs =>
    rw [effect_catchBlock]
    exact .readFailed hs
  | unmount hm => exact .unmount hm

section Swap

theorem find?_key (f : Field) : Field.all.find? (·.key = f.key) = some f := by cases f <;> rfl

def swap (p q : Profile JsString) (hp : ∀ f : Field, f.check (some (p.get f)) = .ok false)
    (hq : ∀ f : Field, f.check (some (q.get f)) = .ok false) : Renaming where
  text key v :=
    (Field.all.find? (·.key = key)).elim v fun f => Equiv.swap (p.get f) (q.get f) v
  text_nil f := by
    have hne : ∀ {v : JsString}, f.check (some v) = .ok false → [] ≠ v := by
      rintro _ hv rfl
      rw [f.check_nil] at hv
      cases hv
    rw [find?_key]
    exact Equiv.swap_apply_of_ne_of_ne (hne (hp f)) (hne (hq f))
  check_text f v := by
    rw [find?_key, Option.elim_some, Equiv.swap_apply_def]
    split
    · subst v
      rw [hp f, hq f]
    · split
      · subst v
        rw [hp f, hq f]
      · rfl

end Swap

end Renaming

end QuizApp.Home
