import QuizApp.Machine.Run
import QuizApp.Platform

/-! `QuizScreen.js` over the tables of `data.json`, and one mounted instance of it as
a machine.  `Instance.writes` holds the `writeFile()` calls whose `then` has not run.
An exception that no handler catches ends the session, so it has no next state. -/

namespace QuizApp.Quiz

open Js

structure CustomData where
  questions : JsObject JsString
  options : JsObject (JsObject JsString)
  answers : JsObject JsString

def CustomData.totalQuestions (customData : CustomData) : Nat := customData.questions.keys.length

/-- A bank of `N` questions: each of the three tables has exactly the keys `1..N`. -/
structure Bank (N : Nat) where
  customData : CustomData
  pos : 1 ≤ N
  questions_keys : customData.questions.keys.Perm (numberedKeys N)
  options_keys : customData.options.keys.Perm (numberedKeys N)
  answers_keys : customData.answers.keys.Perm (numberedKeys N)

structure State where
  currentQuestion : Nat := 1
  selectedOption : Int := -1
  answered : Bool := false
  correctCount : Nat := 0
  questionCount : Nat
  lastQuestion : Bool := false
  deriving DecidableEq

def CustomData.slots (customData : CustomData) (q : Nat) : Except JsError (JsObject JsString) :=
  match customData.options.at? q with
  | some slots => .ok slots
  | none => .error .typeError

inductive ButtonText
  | next | submit
  deriving DecidableEq

structure View where
  question : Nat × Option JsString
  questionOptions : List (Nat × Option JsString)
  nextButton : Option ButtonText

def State.isLast (s : State) : Bool := s.currentQuestion = s.questionCount

-- `render` sets `lastQuestion` in place
def State.rendered (s : State) : State := { s with lastQuestion := s.lastQuestion || s.isLast }

def render (customData : CustomData) (s : State) : Except JsError (State × View) := do
  let slots ← customData.slots s.currentQuestion
  return (s.rendered,
    { question := (s.currentQuestion, customData.questions.at? s.currentQuestion)
      questionOptions := (List.range' 1 4).map fun i => (i, slots.at? i)
      nextButton := if s.answered then some (if s.isLast then .submit else .next) else none })

-- the argument is the merged state; the component is rendered again before the next event
def setState (customData : CustomData) (s : State) : Except JsError State :=
  (render customData s).map Prod.fst

def State.initial (customData : CustomData) : State := { questionCount := customData.totalQuestions }

def State.select (s : State) (key : Nat) : State := { s with selectedOption := key, answered := true }

def State.score (s : State) (correct : Bool) : State :=
  if correct then { s with correctCount := s.correctCount + 1 } else s

def State.advance (s : State) : State :=
  { s with currentQuestion := s.currentQuestion + 1, answered := false, selectedOption := -1 }

def mount (customData : CustomData) : Except JsError State :=
  setState customData (.initial customData)

def click (customData : CustomData) (s : State) (key : Nat) : Except JsError State :=
  setState customData (s.select key)

-- `===` on two strings, either of which may be `undefined`
def CustomData.isCorrect (customData : CustomData) (q : Nat) (o : Int) : Except JsError Bool := do
  let slots ← customData.slots q
  return decide (customData.answers.at? q = slots.at? o)

def nextQuestion (customData : CustomData) (s : State) : Except JsError (State × List Effect) := do
  let correct ← customData.isCorrect s.currentQuestion s.selectedOption
  -- `correctCount` is changed in place, before the branch
  let s := s.score correct
  if s.currentQuestion = s.questionCount then
    return (s, [.callWriteFile (numeral s.correctCount)])
  else
    return (← setState customData s.advance, [])

inductive Write
  | calling (content : JsString)
  | settled (ok : Bool)
  deriving DecidableEq

/-- What runs when `RNFS.writeFile` has settled: the rest of `writeFile`, whose catch
block handles a failure, and then the callback of `then`. -/
def afterWrite (ok : Bool) : List Effect :=
  if ok then [.replace .homeScreen]
  else [.alert "Failed to store the score", .replace .homeScreen]

structure Instance where
  state : State
  writes : List Write := []
  mounted : Bool := true
  deriving DecidableEq

inductive Input
  | tap (key : Nat)
  | press
  deriving DecidableEq

inductive Event
  | input (i : Input)
  | settle (i : Nat) (ok : Bool)
  | resume (i : Nat)
  | unmount
  deriving DecidableEq

def View.offers (view : View) : Input → Bool
  | .tap key => key ∈ view.questionOptions.map Prod.fst
  | .press => view.nextButton.isSome

def handle (customData : CustomData) (s : State) : Input → Except JsError (State × List Effect)
  | .tap key => return (← click customData s key, [])
  | .press => nextQuestion customData s

def launched : List Effect → List Write
  | [] => []
  | .callWriteFile content :: effects => .calling content :: launched effects
  | _ :: effects => launched effects

def Instance.offers (customData : CustomData) (q : Instance) (i : Input) : Bool :=
  match render customData q.state with
  | .ok (_, view) => q.mounted && view.offers i
  | .error _ => false

def react (customData : CustomData) (q : Instance) : Event → Option (Instance × List Effect)
  | .input i =>
    if q.offers customData i then
      match handle customData q.state i with
      | .ok (s, effects) => some ({ q with state := s, writes := q.writes ++ launched effects }, effects)
      | .error _ => none
    else none
  | .settle i ok =>
    match q.writes[i]? with
    | some (.calling content) =>
      some ({ q with writes := q.writes.set i (.settled ok) }, if ok then [.storeFile content] else [])
    | _ => none
  | .resume i =>
    match q.writes[i]? with
    | some (.settled ok) => some ({ q with writes := q.writes.eraseIdx i }, afterWrite ok)
    | _ => none
  | .unmount => if q.mounted then some ({ q with mounted := false }, []) else none

def machine (customData : CustomData) : Machine Instance Event where
  step q e := (react customData q e).map Prod.fst

def Instance.fresh (customData : CustomData) : Instance := { state := (State.initial customData).rendered }

@[simp] theorem State.score_currentQuestion (s : State) (c : Bool) :
    (s.score c).currentQuestion = s.currentQuestion := by cases c <;> rfl

@[simp] theorem State.score_selectedOption (s : State) (c : Bool) :
    (s.score c).selectedOption = s.selectedOption := by cases c <;> rfl

@[simp] theorem State.score_answered (s : State) (c : Bool) :
    (s.score c).answered = s.answered := by cases c <;> rfl

@[simp] theorem State.score_questionCount (s : State) (c : Bool) :
    (s.score c).questionCount = s.questionCount := by cases c <;> rfl

@[simp] theorem State.score_correctCount (s : State) (c : Bool) :
    (s.score c).correctCount = s.correctCount + c.toNat := by cases c <;> rfl

def CustomData.optionText (customData : CustomData) (q : Nat) (o : Int) : Option JsString :=
  (customData.options.at? q).bind (·.at? o)

def CustomData.correct (customData : CustomData) (s : State) : Bool :=
  decide (customData.answers.at? s.currentQuestion =
    customData.optionText s.currentQuestion s.selectedOption)

inductive Reacts (customData : CustomData) (q : Instance) : Event → Instance → List Effect → Prop
  | tap {key : Nat} :
      (customData.options.at? q.state.currentQuestion).isSome → q.mounted = true →
      1 ≤ key → key ≤ 4 →
      Reacts customData q (.input (.tap key)) { q with state := (q.state.select key).rendered } []
  | next :
      (customData.options.at? q.state.currentQuestion).isSome → q.mounted = true →
      q.state.answered = true → q.state.currentQuestion ≠ q.state.questionCount →
      (customData.options.at? (q.state.currentQuestion + 1 : Nat)).isSome →
      Reacts customData q (.input .press)
        { q with state := (q.state.score (customData.correct q.state)).advance.rendered } []
  | submit :
      (customData.options.at? q.state.currentQuestion).isSome → q.mounted = true →
      q.state.answered = true → q.state.currentQuestion = q.state.questionCount →
      Reacts customData q (.input .press)
        { q with
          state := q.state.score (customData.correct q.state)
          writes := q.writes ++
            [.calling (numeral (q.state.score (customData.correct q.state)).correctCount)] }
        [.callWriteFile (numeral (q.state.score (customData.correct q.state)).correctCount)]
  | settle {i : Nat} {ok : Bool} {content : JsString} :
      q.writes[i]? = some (.calling content) →
      Reacts customData q (.settle i ok) { q with writes := q.writes.set i (.settled ok) }
        (if ok then [.storeFile content] else [])
  | resume {i : Nat} {ok : Bool} :
      q.writes[i]? = some (.settled ok) →
      Reacts customData q (.resume i) { q with writes := q.writes.eraseIdx i } (afterWrite ok)
  | unmount : q.mounted = true → Reacts customData q .unmount { q with mounted := false } []

theorem slots_of_at? {customData : CustomData} {q : Nat} {slots : JsObject JsString}
    (h : customData.options.at? q = some slots) : customData.slots q = .ok slots := by
  simp [CustomData.slots, h]

theorem slots_of_none {customData : CustomData} {q : Nat}
    (h : customData.options.at? q = none) : customData.slots q = .error .typeError := by
  simp [CustomData.slots, h]

theorem isCorrect_of_at? {customData : CustomData} {s : State} {slots : JsObject JsString}
    (h : customData.options.at? s.currentQuestion = some slots) :
    customData.isCorrect s.currentQuestion s.selectedOption = .ok (customData.correct s) := by
  simp [CustomData.isCorrect, CustomData.correct, CustomData.optionText, slots_of_at? h, h]

theorem setState_of_isSome {customData : CustomData} {s : State}
    (h : (customData.options.at? s.currentQuestion).isSome) :
    setState customData s = .ok s.rendered := by
  obtain ⟨slots, h⟩ := Option.isSome_iff_exists.mp h
  simp only [setState, render, slots_of_at? h]
  rfl

theorem setState_of_none {customData : CustomData} {s : State}
    (h : customData.options.at? s.currentQuestion = none) :
    setState customData s = .error .typeError := by
  simp only [setState, render, slots_of_none h]
  rfl

theorem offers_of_none {customData : CustomData} {q : Instance} (i : Input)
    (h : customData.options.at? q.state.currentQuestion = none) :
    q.offers customData i = false := by
  simp [Instance.offers, render, slots_of_none h, bind, Except.bind]

theorem offers_tap_iff (customData : CustomData) (q : Instance) (key : Nat) :
    q.offers customData (.tap key) = true ↔
      (customData.options.at? q.state.currentQuestion).isSome ∧ q.mounted = true ∧
        1 ≤ key ∧ key ≤ 4 := by
  cases h : customData.options.at? q.state.currentQuestion with
  | none => simp [offers_of_none _ h]
  | some slots =>
    simp [Instance.offers, render, slots_of_at? h, bind, Except.bind, pure, Except.pure,
      View.offers]
    omega

theorem offers_press_iff (customData : CustomData) (q : Instance) :
    q.offers customData .press = true ↔
      (customData.options.at? q.state.currentQuestion).isSome ∧ q.mounted = true ∧
        q.state.answered = true := by
  cases h : customData.options.at? q.state.currentQuestion with
  | none => simp [offers_of_none _ h]
  | some slots =>
    simp [Instance.offers, render, slots_of_at? h, bind, Except.bind, pure, Except.pure,
      View.offers]

theorem nextQuestion_of_last {customData : CustomData} {s : State}
    (hslots : (customData.options.at? s.currentQuestion).isSome)
    (hlast : s.currentQuestion = s.questionCount) :
    nextQuestion customData s = .ok (s.score (customData.correct s),
      [.callWriteFile (numeral (s.score (customData.correct s)).correctCount)]) := by
  obtain ⟨slots, hslots⟩ := Option.isSome_iff_exists.mp hslots
  simp only [nextQuestion, isCorrect_of_at? hslots, bind, Except.bind, pure, Except.pure,
    State.score_currentQuestion, State.score_questionCount, if_pos hlast]

theorem nextQuestion_of_not_last {customData : CustomData} {s : State}
    (hslots : (customData.options.at? s.currentQuestion).isSome)
    (hlast : s.currentQuestion ≠ s.questionCount) :
    nextQuestion customData s =
      (setState customData (s.score (customData.correct s)).advance).map fun t => (t, []) := by
  obtain ⟨slots, hslots⟩ := Option.isSome_iff_exists.mp hslots
  simp only [nextQuestion, isCorrect_of_at? hslots, bind, Except.bind, pure, Except.pure,
    State.score_currentQuestion, State.score_questionCount, hlast, if_false, Except.map]

theorem react_iff (customData : CustomData) (q : Instance) (e : Event) (r : Instance)
    (fx : List Effect) : react customData q e = some (r, fx) ↔ Reacts customData q e r fx := by
  constructor
  · intro h
    cases e with
    | input i =>
      simp only [react] at h
      split at h
      case isFalse => cases h
      case isTrue hoffers =>
        cases i with
        | tap key =>
          obtain ⟨hslots, hmounted, hpos, hle⟩ := (offers_tap_iff customData q key).mp hoffers
          have hclick : click customData q.state key = .ok (q.state.select key).rendered :=
            setState_of_isSome hslots
          simp only [handle, hclick, bind, Except.bind, pure, Except.pure, Option.some.injEq,
            Prod.mk.injEq, launched, List.append_nil] at h
          obtain ⟨rfl, rfl⟩ := h
          exact .tap hslots hmounted hpos hle
        | press =>
          obtain ⟨hslots, hmounted, hanswered⟩ := (offers_press_iff customData q).mp hoffers
          by_cases hlast : q.state.currentQuestion = q.state.questionCount
          · simp only [handle, nextQuestion_of_last hslots hlast, Option.some.injEq, Prod.mk.injEq,
              launched] at h
            obtain ⟨rfl, rfl⟩ := h
            exact .submit hslots hmounted hanswered hlast
          · simp only [handle, nextQuestion_of_not_last hslots hlast] at h
            cases hnext : customData.options.at? (q.state.currentQuestion + 1 : Nat) with
            | none =>
              rw [setState_of_none (by simpa [State.advance] using hnext)] at h
              cases h
            | some slots =>
              have hsome : (customData.options.at? (q.state.currentQuestion + 1 : Nat)).isSome := by
                rw [hnext]
                rfl
              rw [setState_of_isSome (by simpa [State.advance] using hsome)] at h
              simp only [Except.map, Option.some.injEq, Prod.mk.injEq, launched,
                List.append_nil] at h
              obtain ⟨rfl, rfl⟩ := h
              exact .next hslots hmounted hanswered hlast hsome
    | settle i ok =>
      simp only [react] at h
      split at h
      · rename_i content hi
        cases h
        exact .settle hi
      · cases h
    | resume i =>
      simp only [react] at h
      split at h
      · rename_i ok hi
        cases h
        exact .resume hi
      · cases h
    | unmount =>
      simp only [react] at h
      split at h
      · rename_i hmounted
        cases h
        exact .unmount hmounted
      · cases h
  · intro h
    cases h with
    | tap hslots hmounted hpos hle =>
      simp [react, (offers_tap_iff customData q _).mpr ⟨hslots, hmounted, hpos, hle⟩, handle, click,
        setState_of_isSome (s := q.state.select _) hslots, bind, Except.bind, pure, Except.pure,
        launched]
    | next hslots hmounted hanswered hlast hnext =>
      simp [react, (offers_press_iff customData q).mpr ⟨hslots, hmounted, hanswered⟩, handle,
        nextQuestion_of_not_last hslots hlast, launched, Except.map,
        setState_of_isSome (s := (q.state.score (customData.correct q.state)).advance)
          (by simpa [State.advance] using hnext)]
    | submit hslots hmounted hanswered hlast =>
      simp [react, (offers_press_iff customData q).mpr ⟨hslots, hmounted, hanswered⟩, handle,
        nextQuestion_of_last hslots hlast, launched]
    | settle hi => simp [react, hi]
    | resume hi => simp [react, hi]
    | unmount hmounted => simp [react, hmounted]

theorem step_iff (customData : CustomData) (q : Instance) (e : Event) (r : Instance) :
    (machine customData).step q e = some r ↔ ∃ fx, Reacts customData q e r fx := by
  simp [machine, ← react_iff]

end QuizApp.Quiz
