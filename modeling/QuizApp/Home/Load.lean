import QuizApp.Home.Screen

namespace QuizApp.Home

open Js

def Instance.loaded (h : Instance) : Option (Profile (Option JsString)) :=
  match h.load with
  | some (.settled (.age firstNameValue lastNameValue nickNameValue) (.fulfilled ageValue)) =>
    if h.mounted = true ∧ Found ⟨firstNameValue, lastNameValue, nickNameValue, ageValue⟩ then
      some ⟨firstNameValue, lastNameValue, nickNameValue, ageValue⟩
    else none
  | _ => none

theorem Instance.loaded_of_resume {h : Instance} {point : GetData} {value : Option JsString}
    {read : Profile (Option JsString)} (hload : h.load = some (.settled point (.fulfilled value)))
    (hread : point.resume value = .inr read) :
    h.loaded = if h.mounted = true ∧ Found read then some read else none := by
  cases point with
  | age a b c =>
    cases hread
    simp [Instance.loaded, hload]
  | _ => cases hread

theorem Instance.loaded_of_next {h : Instance} {point next : GetData} {value : Option JsString}
    (hload : h.load = some (.settled point (.fulfilled value)))
    (hnext : point.resume value = .inl next) : h.loaded = none := by
  cases point with
  | age a b c => cases hnext
  | _ => simp [Instance.loaded, hload]

inductive FormStep (h : Instance) : Event → State → Prop
  | edit (f : Field) (v : JsString) : FormStep h (.edit f (some v)) (inputHandler f h.state (some v))
  | reject (faults : Profile Bool) :
      (∀ f : Field, f.check (h.state.values.get f) = .ok (faults.get f)) →
      FormStep h .login { h.state with errors := faults }
  | load (read : Profile (Option JsString)) : h.loaded = some read →
      FormStep h .resumeLoad { h.state with values := read }
  | other {e : Event} {s : State} : (∀ f v, e ≠ .edit f (some v)) →
      (e = .resumeLoad → h.loaded = none) →
      s.values = h.state.values → s.errors = h.state.errors → FormStep h e s

theorem formStep_of_loadDone {h : Instance} {point : GetData} {value : Option JsString}
    {read : Profile (Option JsString)} (hload : h.load = some (.settled point (.fulfilled value)))
    (hread : point.resume value = .inr read) :
    FormStep h .resumeLoad (h.setState (h.state.load read)).state := by
  have hloaded := Instance.loaded_of_resume hload hread
  by_cases hput : h.mounted = true ∧ Found read
  · rw [if_pos hput] at hloaded
    simp only [Instance.setState, hput.1, if_true, State.load, hput.2]
    exact .load read hloaded
  · rw [if_neg hput] at hloaded
    have hsame : (h.setState (h.state.load read)).state = h.state := by
      simp only [Instance.setState, State.load]
      split
      · rename_i hmounted
        exact if_neg fun hfound => hput ⟨hmounted, hfound⟩
      · rfl
    rw [hsame]
    exact .other (fun _ _ he => by cases he) (fun _ => hloaded) rfl rfl

theorem Reacts.formStep {h r : Instance} {e : Event} {fx : List Effect} (hr : Reacts h e r fx) :
    FormStep h e r.state := by
  cases hr with
  | @edit f val _ =>
    cases val with
    | some v => exact .edit f v
    | none => exact .other (fun _ _ he => by cases he) (fun he => by cases he) rfl rfl
  | rejected _ hf _ => exact .reject _ hf
  | loadNext hload hnext =>
    exact .other (fun _ _ he => by cases he) (fun _ => Instance.loaded_of_next hload hnext) rfl rfl
  | loadDone hload hread => exact formStep_of_loadDone hload hread
  | loadFailed hload =>
    exact .other (fun _ _ he => by cases he) (fun _ => by simp [Instance.loaded, hload]) rfl rfl
  | readDone =>
    exact .other (fun _ _ he => by cases he) (fun he => by cases he) (Instance.setState_values _ rfl)
      (Instance.setState_errors _ rfl)
  | _ => exact .other (fun _ _ he => by cases he) (fun he => by cases he) rfl rfl

theorem formStep_of_step {h r : Instance} {e : Event} (hstep : machine.step h e = some r) :
    FormStep h e r.state := by
  obtain ⟨fx, hr⟩ := (step_iff h e r).mp hstep
  exact hr.formStep

theorem FormStep.strings_iff {h : Instance} {e : Event} {s : State} (hform : FormStep h e s)
    (hs : h.state.Strings) :
    s.Strings ↔ (e = .resumeLoad → ∀ read, h.loaded = some read → ∀ f, (read.get f).isSome) := by
  cases hform with
  | edit f v =>
    refine ⟨fun _ he => (by cases he), fun _ g => ?_⟩
    by_cases hg : g = f
    · subst hg
      simp [inputHandler]
    · simpa [inputHandler, hg] using hs g
  | reject faults => exact ⟨fun _ he => (by cases he), fun _ => hs⟩
  | load read hread =>
    constructor
    · intro hstrings _ read' hread'
      cases hread.symm.trans hread'
      exact hstrings
    · intro hwhole
      exact hwhole rfl read hread
  | other _ hnone hvalues _ =>
    refine ⟨fun _ he read hread => ?_, fun _ f => ?_⟩
    · rw [hnone he] at hread
      cases hread
    · rw [hvalues]
      exact hs f

section Typed

def edits (_ : Instance) : Event → List (Field × JsString)
  | .edit f (some v) => [(f, v)]
  | _ => []

def lastEdit (f : Field) (l : List (Field × JsString)) : Option JsString :=
  l.foldl (fun last x => if x.1 = f then some x.2 else last) none

@[simp] theorem lastEdit_nil (f : Field) : lastEdit f [] = none := rfl

@[simp] theorem lastEdit_snoc (f g : Field) (v : JsString) (l : List (Field × JsString)) :
    lastEdit f (l ++ [(g, v)]) = if g = f then some v else lastEdit f l := by
  simp [lastEdit]

def Typed (s : State) (l : List (Field × JsString)) : Prop :=
  ∀ f v, lastEdit f l = some v → s.values.get f = some v

def LoadsTyped (h : Instance) (l : List (Field × JsString)) (e : Event) : Prop :=
  e = .resumeLoad → ∀ read, h.loaded = some read →
    ∀ f v, lastEdit f l = some v → read.get f = some v

theorem edits_of_ne {h : Instance} {e : Event} (he : ∀ f v, e ≠ .edit f (some v)) :
    edits h e = [] := by
  cases e with
  | edit f val =>
    cases val with
    | some v => exact absurd rfl (he f v)
    | none => rfl
  | _ => rfl

theorem FormStep.typed {h : Instance} {e : Event} {s : State} {l : List (Field × JsString)}
    (hform : FormStep h e s) (ht : Typed h.state l) (hload : LoadsTyped h l e) :
    Typed s (l ++ edits h e) := by
  intro g w hg
  cases hform with
  | edit f v =>
    simp only [edits, lastEdit_snoc] at hg
    by_cases hfg : f = g
    · subst hfg
      simpa [inputHandler] using hg
    · rw [if_neg hfg] at hg
      simpa [inputHandler, Ne.symm hfg] using ht g w hg
  | reject faults => exact ht g w (by simpa [edits] using hg)
  | load read hread => exact hload rfl read hread g w (by simpa [edits] using hg)
  | other hne _ hvalues _ =>
    rw [edits_of_ne hne, List.append_nil] at hg
    rw [hvalues]
    exact ht g w hg

theorem FormStep.loadsTyped {h : Instance} {e : Event} {s : State} {l : List (Field × JsString)}
    (hform : FormStep h e s) (ht : Typed s (l ++ edits h e)) : LoadsTyped h l e := by
  rintro rfl read hread f v hf
  have hget := ht f v (by simpa [edits] using hf)
  cases hform with
  | load read' hread' =>
    cases hread.symm.trans hread'
    exact hget
  | other _ hnone _ _ =>
    rw [hnone rfl] at hread
    cases hread

/-- Typed text survives exactly the runs in which a completing load reads, for every
field edited before it, the text last typed there. -/
theorem typed_iff_loadsTyped (es : List Event) :
    machine.Always edits (fun h l => Typed h.state l) {} es ↔ machine.Meets edits LoadsTyped {} es :=
  Machine.always_iff_meets (K := fun h l => Typed h.state l) (fun f v hf => by simp at hf)
    (fun _ _ _ _ ht hload hstep => (formStep_of_step hstep).typed ht hload) (fun _ _ ht => ht)
    (fun _ _ _ _ _ hstep ht => (formStep_of_step hstep).loadsTyped ht) es

def loadEvents (read : Profile (Option JsString)) : List Event :=
  [.settleLoad (.fulfilled read.firstName), .resumeLoad,
    .settleLoad (.fulfilled read.lastName), .resumeLoad,
    .settleLoad (.fulfilled read.nickName), .resumeLoad,
    .settleLoad (.fulfilled read.age), .resumeLoad]

def typeEvents (p : Profile JsString) : List Event :=
  [.edit .firstName (some p.firstName), .edit .lastName (some p.lastName),
    .edit .nickName (some p.nickName), .edit .age (some p.age)]

def ann : Profile JsString := ⟨.lit "Ann", .lit "Lee", .lit "annie", .lit "30"⟩

def Profile.some (p : Profile JsString) : Profile (Option JsString) :=
  ⟨p.firstName, p.lastName, p.nickName, p.age⟩

@[simp] theorem Profile.get_some (p : Profile JsString) (f : Field) :
    p.some.get f = Option.some (p.get f) := by cases f <;> rfl

theorem load_overwrites_typed :
    ¬ machine.Always edits (fun h l => Typed h.state l) {}
      (.edit .firstName (some (.lit "Bob")) :: loadEvents ann.some) := by
  intro h
  have hend : machine.run {} (.edit .firstName (some (.lit "Bob")) :: loadEvents ann.some) =
      some { state := { values := ann.some }, load := none } := by decide
  have htyped := h _ (List.prefix_refl _) _ hend .firstName (.lit "Bob") (by decide)
  revert htyped
  decide

end Typed

section Errors

def ErrorsCurrent (s : State) : Prop :=
  ∀ f : Field, s.errors.get f = true → f.check (s.values.get f) = .ok true

def LoadsFaulty (h : Instance) (_ : List Unit) (e : Event) : Prop :=
  e = .resumeLoad → ∀ read, h.loaded = some read →
    ∀ f : Field, h.state.errors.get f = true → f.check (read.get f) = .ok true

theorem FormStep.errorsCurrent {h : Instance} {e : Event} {s : State} {l : List Unit}
    (hform : FormStep h e s) (he : ErrorsCurrent h.state) (hload : LoadsFaulty h l e) :
    ErrorsCurrent s := by
  intro g hg
  cases hform with
  | edit f v =>
    by_cases hfg : g = f
    · subst hfg
      simp [inputHandler] at hg
    · simp only [inputHandler, Profile.get_set_of_ne _ _ hfg] at hg ⊢
      exact he g hg
  | reject faults hf => rw [hf g, hg]
  | load read hread => exact hload rfl read hread g hg
  | other _ _ hvalues herrors =>
    rw [herrors] at hg
    rw [hvalues]
    exact he g hg

theorem FormStep.loadsFaulty {h : Instance} {e : Event} {s : State} {l : List Unit}
    (hform : FormStep h e s) (he : ErrorsCurrent s) : LoadsFaulty h l e := by
  rintro rfl read hread f hf
  cases hform with
  | load read' hread' =>
    cases hread.symm.trans hread'
    exact he f hf
  | other _ hnone _ _ =>
    rw [hnone rfl] at hread
    cases hread

/-- No error message is stale exactly in the runs in which a completing load reads a
faulty value for every field whose message is up. -/
theorem errorsCurrent_iff_loadsFaulty (es : List Event) :
    machine.Always Machine.unobserved (fun h _ => ErrorsCurrent h.state) {} es ↔
      machine.Meets Machine.unobserved LoadsFaulty {} es :=
  Machine.always_iff_meets (K := fun h _ => ErrorsCurrent h.state) (fun f hf => by simp at hf)
    (fun _ _ _ _ he hload hstep => (formStep_of_step hstep).errorsCurrent he hload)
    (fun _ _ he => he) (fun _ _ _ _ _ hstep he => (formStep_of_step hstep).loadsFaulty he) es

theorem load_leaves_stale_errors :
    ¬ machine.Always Machine.unobserved (fun h _ => ErrorsCurrent h.state) {}
      (.login :: loadEvents ann.some) := by
  intro h
  have hend : machine.run {} (.login :: loadEvents ann.some) =
      some { state := { values := ann.some, errors := .replicate true }, load := none } := by decide
  have hcurrent := h _ (List.prefix_refl _) _ hend .firstName rfl
  revert hcurrent
  decide

end Errors

end QuizApp.Home
