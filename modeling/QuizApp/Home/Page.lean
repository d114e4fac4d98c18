import QuizApp.Lists.History
import QuizApp.Home.Load

namespace QuizApp.Home

open Js
open History (Since)

inductive KeyboardType
  | default | numeric
  deriving DecidableEq

structure InputBox where
  formHeading : String
  placeholder : String
  keyboardType : KeyboardType
  defaultValue : Option JsString
  errorText : Option String
  deriving DecidableEq

structure Page where
  header : String
  inputs : Profile InputBox
  scoreDisplay : Option JsString
  button : String
  deriving DecidableEq

def Field.errorText : Field → String
  | .firstName | .lastName | .nickName => " field cannot be empty "
  | .age => " enter valid age "

def inputBox (f : Field) (formHeading placeholder : String) (keyboardType : KeyboardType)
    (s : State) : InputBox where
  formHeading := formHeading
  placeholder := placeholder
  keyboardType := keyboardType
  defaultValue := s.values.get f
  errorText := if s.errors.get f then some f.errorText else none

def scoreText (score : JsString) : JsString := .lit " Current Score : " ++ score ++ .lit " "

def render (s : State) : Page where
  header := " Quiz App "
  inputs :=
    { firstName := inputBox .firstName " First Name " "Enter first name" .default s
      lastName := inputBox .lastName " Last Name " "enter last name" .default s
      nickName := inputBox .nickName " Nick Name " "enter nick name" .default s
      age := inputBox .age " Age " "enter age" .numeric s }
  scoreDisplay := if s.scoreExists then some (scoreText s.score) else none
  button := "Login"

inductive Note
  | typed (f : Field) (v : JsString)
  | login
  | loaded (read : Profile (Option JsString))
  | scored (fileData : JsString)
  deriving DecidableEq

def Instance.scored (h : Instance) : Option JsString :=
  match h.readScore with
  | some (.readFileSettled (.fulfilled fileData)) => if h.mounted then some fileData else none
  | _ => none

def notes (h : Instance) : Event → List Note
  | .edit f (some v) => [.typed f v]
  | .login => [.login]
  | .resumeLoad => (h.loaded.map .loaded).toList
  | .resumeScore => (h.scored.map .scored).toList
  | _ => []

def Note.written (f : Field) : Note → Option (Option JsString)
  | .typed g v => if g = f then some (some v) else none
  | .loaded read => some (read.get f)
  | .login | .scored _ => none

def Note.fileData : Note → Option JsString
  | .scored fileData => some fileData
  | _ => none

def valueAfter (f : Field) (l : List Note) : Option JsString :=
  (History.last (Note.written f) l).getD (some [])

def scoreAfter (l : List Note) : Option JsString := History.last Note.fileData l

def Refused (l : List Note) : Prop := ∃ f : Field, f.check (valueAfter f l) = .ok true

/-- The last login that was refused found fault with the field, and nothing has been typed
there since. -/
def Raised (f : Field) : List Note → Prop :=
  Since (fun before x => x = .login ∧ f.check (valueAfter f before) = .ok true)
    (fun before x => (x = .login → ¬ Refused before) ∧ ∀ v, x ≠ .typed f v)

@[simp] theorem valueAfter_nil (f : Field) : valueAfter f [] = some [] := rfl

@[simp] theorem valueAfter_snoc (f : Field) (l : List Note) (x : Note) :
    valueAfter f (l ++ [x]) = (x.written f).getD (valueAfter f l) := by
  rw [valueAfter, History.last_snoc]
  cases x.written f <;> rfl

@[simp] theorem scoreAfter_snoc (l : List Note) (x : Note) :
    scoreAfter (l ++ [x]) = x.fileData.or (scoreAfter l) :=
  History.last_snoc _ _ _

section Raised

variable {f : Field} {l : List Note}

@[simp] theorem not_raised_nil (f : Field) : ¬ Raised f [] := History.since_nil

theorem raised_refused (h : Refused l) :
    Raised f (l ++ [.login]) ↔ f.check (valueAfter f l) = .ok true := by
  simp [Raised, History.since_snoc, h]

theorem raised_accepted (h : ¬ Refused l) : Raised f (l ++ [.login]) ↔ Raised f l := by
  have hf : ¬ f.check (valueAfter f l) = .ok true := fun hf => h ⟨f, hf⟩
  simp [Raised, History.since_snoc, h, hf]

theorem raised_snoc {x : Note} (h : x ≠ .login) :
    Raised f (l ++ [x]) ↔ Raised f l ∧ ∀ v, x ≠ .typed f v := by
  simp [Raised, History.since_snoc, h]

end Raised

structure Reflects (s : State) (l : List Note) : Prop where
  values : ∀ f, s.values.get f = valueAfter f l
  errors : ∀ f, s.errors.get f = true ↔ Raised f l
  score : (if s.scoreExists then some s.score else none) = scoreAfter l

namespace Reflects

variable {h r : Instance} {l : List Note}

theorem fresh : Reflects {} [] where
  values f := by simp
  errors f := by simp
  score := rfl

theorem typed (hl : Reflects h.state l) (f : Field) (v : JsString) :
    Reflects (inputHandler f h.state (some v)) (l ++ [.typed f v]) where
  values g := by
    by_cases hg : g = f
    · subst hg
      simp [inputHandler, Note.written]
    · simpa [inputHandler, Note.written, hg, Ne.symm hg] using hl.values g
  errors g := by
    rw [raised_snoc (by simp), ← hl.errors g]
    by_cases hg : g = f
    · subst hg
      simp [inputHandler]
    · simp [inputHandler, hg, Ne.symm hg]
  score := by
    rw [scoreAfter_snoc]
    exact hl.score

theorem refused (hl : Reflects h.state l) {faults : Profile Bool}
    (hf : ∀ f : Field, f.check (h.state.values.get f) = .ok (faults.get f))
    (hfault : faults.hasFault = true) :
    Reflects { h.state with errors := faults } (l ++ [.login]) where
  values f := by simpa [Note.written] using hl.values f
  errors f := by
    have hrefused : Refused l := by
      by_contra hnot
      have hall : faults.hasFault = false := by
        rw [Profile.hasFault_eq_false]
        intro g
        cases hg : faults.get g with
        | false => rfl
        | true => exact absurd ⟨g, by rw [← hl.values, hf, hg]⟩ hnot
      rw [hfault] at hall
      cases hall
    rw [raised_refused hrefused, ← hl.values, hf]
    simp
  score := by simpa [Note.fileData] using hl.score

theorem accepted (hl : Reflects h.state l)
    (hf : ∀ f : Field, f.check (h.state.values.get f) = .ok false) :
    Reflects h.state (l ++ [.login]) where
  values f := by simpa [Note.written] using hl.values f
  errors f := by
    have hnot : ¬ Refused l := by
      rintro ⟨g, hg⟩
      rw [← hl.values, hf] at hg
      cases hg
    rw [raised_accepted hnot, ← hl.errors]
  score := by simpa [Note.fileData] using hl.score

theorem loaded (hl : Reflects h.state l) (read : Profile (Option JsString)) :
    Reflects { h.state with values := read } (l ++ [.loaded read]) where
  values f := by simp [Note.written]
  errors f := by
    rw [raised_snoc (by simp), ← hl.errors]
    simp
  score := by simpa [Note.fileData] using hl.score

theorem scored (hl : Reflects h.state l) (fileData : JsString) :
    Reflects { h.state with scoreExists := true, score := fileData } (l ++ [.scored fileData]) where
  values f := by simpa [Note.written] using hl.values f
  errors f := by
    rw [raised_snoc (by simp), ← hl.errors]
    simp
  score := by simp [Note.fileData]

theorem step (hl : Reflects h.state l) {e : Event} {fx : List Effect} (hr : Reacts h e r fx) :
    Reflects r.state (l ++ notes h e) := by
  have hsame : notes h e = [] → r.state = h.state → Reflects r.state (l ++ notes h e) := by
    intro hnotes hstate
    rw [hnotes, hstate, List.append_nil]
    exact hl
  cases hr with
  | @edit f val _ =>
    cases val with
    | some v => exact hl.typed f v
    | none => exact hsame rfl rfl
  | rejected _ hf hfault => exact hl.refused hf hfault
  | accepted _ hf => exact hl.accepted hf
  | loadNext hload hnext => exact hsame (by simp [notes, Instance.loaded_of_next hload hnext]) rfl
  | @loadDone point value read hload hread =>
    by_cases hput : h.mounted = true ∧ Found read
    · have hloaded := (Instance.loaded_of_resume hload hread).trans (if_pos hput)
      simpa [notes, hloaded, Instance.setState, hput.1, State.load, hput.2] using hl.loaded read
    · have hloaded := (Instance.loaded_of_resume hload hread).trans (if_neg hput)
      refine hsame (by simp [notes, hloaded]) ?_
      simp only [Instance.setState, State.load]
      split
      · rename_i hmounted
        exact if_neg fun hfound => hput ⟨hmounted, hfound⟩
      · rfl
  | loadFailed hload => exact hsame (by simp [notes, Instance.loaded, hload]) rfl
  | checked hread => exact hsame (by simp [notes, Instance.scored, hread]) rfl
  | @readDone fileData hread =>
    cases hmounted : h.mounted with
    | true =>
      simpa [notes, Instance.scored, hread, hmounted, Instance.setState] using hl.scored fileData
    | false =>
      exact hsame (by simp [notes, Instance.scored, hread, hmounted])
        (by simp [Instance.setState, hmounted])
  | readFailed hread => exact hsame (by simp [notes, Instance.scored, hread]) rfl
  | _ => exact hsame rfl rfl

end Reflects

theorem reflects_of_run {es : List Event} {h : Instance} (hrun : machine.run {} es = some h) :
    Reflects h.state (machine.log notes {} es) := by
  apply Machine.run_invariant (K := fun h l => Reflects (Instance.state h) l) .fresh ?_ hrun
  intro h l e r hl hstep
  obtain ⟨fx, hr⟩ := (step_iff h e r).mp hstep
  exact hl.step hr

theorem Reflects.page {s : State} {l : List Note} (hl : Reflects s l) :
    (∀ f, ((render s).inputs.get f).defaultValue = valueAfter f l ∧
      (((render s).inputs.get f).errorText = some f.errorText ↔ Raised f l)) ∧
    (render s).scoreDisplay = (scoreAfter l).map scoreText := by
  refine ⟨?_, ?_⟩
  · intro f
    have hbox : ((render s).inputs.get f).defaultValue = s.values.get f ∧
        ((render s).inputs.get f).errorText =
          if s.errors.get f then some f.errorText else none := by cases f <;> exact ⟨rfl, rfl⟩
    rw [hbox.1, hbox.2, hl.values, ← hl.errors]
    refine ⟨rfl, ?_⟩
    cases s.errors.get f <;> simp
  · rw [← hl.score]
    simp only [render]
    cases s.scoreExists <;> rfl

end QuizApp.Home
