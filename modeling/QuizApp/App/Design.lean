import QuizApp.Machine.Refine
import QuizApp.App.Quiescence

/-! What the app is for: one page at a time, a profile and a score that are kept between
sessions, and no calls that take time.  `Toward b app d` relates a running app to the
state of this design that it reaches when it comes to rest. -/

namespace QuizApp.Home

open Js

def Field.fault : Field → JsString → Bool
  | .firstName, v | .lastName, v | .nickName, v => (trim v).isEmpty
  | .age, v => v.isEmpty || isNaN v

theorem Field.check_eq_fault (f : Field) (v : JsString) : f.check (some v) = .ok (f.fault v) := by
  cases f <;> rfl

def Profile.faults (p : Profile JsString) : Profile Bool :=
  ⟨Field.firstName.fault p.firstName, Field.lastName.fault p.lastName,
    Field.nickName.fault p.nickName, Field.age.fault p.age⟩

@[simp] theorem Profile.get_faults (p : Profile JsString) (f : Field) :
    p.faults.get f = f.fault (p.get f) := by cases f <;> rfl

theorem Profile.some_set (p : Profile JsString) (f : Field) (v : JsString) :
    (p.set f v).some = p.some.set f (Option.some v) := by cases f <;> rfl

end QuizApp.Home

namespace QuizApp.App

open Js
open Home (Field Profile)
open Quiz (Bank Grader grader)

inductive Page
  | home (form : Profile JsString) (errors : Profile Bool)
  | quiz (g : Grader)

structure Design where
  profile : Option (Profile JsString) := none
  score : Option Nat := none
  page : Page := .home (.replicate []) (.replicate false)

inductive Request
  | edit (f : Field) (v : JsString)
  | login
  | tap (key : Nat)
  | press
  | restart
  deriving DecidableEq

def Design.home (d : Design) : Page := .home (d.profile.getD (.replicate [])) (.replicate false)

def Design.step {N : Nat} (b : Bank N) (d : Design) : Request → Option Design
  | .edit f v =>
    match d.page with
    | .home form errors => some { d with page := .home (form.set f v) (errors.set f false) }
    | .quiz _ => none
  | .login =>
    match d.page with
    | .home form _ =>
      if form.faults.hasFault then some { d with page := .home form form.faults }
      else some { d with profile := some form, page := .quiz {} }
    | .quiz _ => none
  | .tap key =>
    match d.page with
    | .home _ _ => none
    | .quiz g =>
      if 1 ≤ key ∧ key ≤ 4 then some { d with page := .quiz { g with last := some key } } else none
  | .press =>
    match d.page with
    | .home _ _ => none
    | .quiz g => (grader.step g .press).map fun g =>
      if g.graded.length = N then { d with score := some (g.score b.customData), page := d.home }
      else { d with page := .quiz g }
  | .restart => some { d with page := d.home }

def design {N : Nat} (b : Bank N) : Machine Design Request where
  step := Design.step b

def Event.request : Event → List Request
  | .home _ (.edit f (some v)) => [.edit f v]
  | .home _ .login => [.login]
  | .quiz _ (.input (.tap key)) => [.tap key]
  | .quiz _ (.input .press) => [.press]
  | .kill => [.restart]
  | _ => []

def Event.fulfils : Event → Bool
  | .home _ e => !e.fails
  | .quiz _ (.settle _ ok) => ok
  | _ => true

/-- No call fails, and the user and the system wait for the app to come to rest before
the next input or the end of the session. -/
structure Patient (app : System) (e : Event) : Prop where
  fulfils : e.fulfils = true
  waits : e.isBackground = false → e ≠ .back → AtRest app

def ShowsScore (score : Option Nat) (file : Option JsString) (h : Home.Instance) : Prop :=
  match h.readScore with
  | none => h.state.scoreExists = score.isSome ∧ h.state.score = (score.map numeral).getD []
  | some point => (h.state.scoreExists = false ∧ h.state.score = []) ∧
    match point with
    | .checkFile => True
    | .checkFileSettled reply => reply = .fulfilled file.isSome
    | .readFile => file.isSome = true
    | .readFileSettled reply => ∃ content, file = some content ∧ reply = .fulfilled content

inductive Stage {N : Nat} (b : Bank N) (file : Option JsString) (d : Design) : Instance → Prop
  | loading {h : Home.Instance} : d.page = d.home → file = d.score.map numeral →
      h.mounted = true → h.load ≠ none → h.state.values = .replicate (some []) →
      ShowsScore d.score file h → Stage b file d (.home h)
  | form {h : Home.Instance} {form : Profile JsString} {errors : Profile Bool} :
      d.page = .home form errors → file = d.score.map numeral →
      h.mounted = true → h.load = none → h.state.values = form.some → h.state.errors = errors →
      ShowsScore d.score file h → Stage b file d (.home h)
  | quiz {q : Quiz.Instance} {g : Grader} : d.page = .quiz g → file = d.score.map numeral →
      q.writes = [] → Quiz.Simulates b q g (List.range' 1 g.graded.length) →
      Stage b file d (.quiz q)
  | writing {q : Quiz.Instance} {n : Nat} : d.page = d.home → d.score = some n →
      q.writes = [.calling (numeral n)] → Stage b file d (.quiz q)
  | written {q : Quiz.Instance} : d.page = d.home → file = d.score.map numeral →
      q.writes = [.settled true] → Stage b file d (.quiz q)

structure Toward {N : Nat} (b : Bank N) (app : System) (d : Design) : Prop where
  mirrored : Mirrored b.customData app (d.profile.map Profile.some).toList
  unsaved : d.profile = none → ∀ f : Field, app.storage f.key = none
  saved : (∀ g, d.page ≠ .quiz g) → NoSaves app
  current : ∃ i, app.instances[app.current]? = some i ∧ Stage b app.file d i
  homes : ∀ (id : Nat) h, app.instances[id]? = some (.home h) → id ≠ app.current →
    h.load = none ∧ h.readScore = none
  quizzes : ∀ (id : Nat) q, app.instances[id]? = some (.quiz q) → id ≠ app.current → q.writes = []

/-- The app at rest on the page of the design, with its profile and score in store. -/
structure Shows {N : Nat} (b : Bank N) (app : System) (d : Design) : Prop where
  storage : ∀ f : Field, app.storage f.key = d.profile.map (·.get f)
  file : app.file = d.score.map numeral
  home : ∀ form errors, d.page = .home form errors → ∃ h, app.instances[app.current]? = some (.home h) ∧
    h.state = { values := form.some, score := (d.score.map numeral).getD [], errors,
                scoreExists := d.score.isSome }
  quiz : ∀ g, d.page = .quiz g → ∃ q, app.instances[app.current]? = some (.quiz q) ∧
    Quiz.Simulates b q g (List.range' 1 g.graded.length)

end QuizApp.App
