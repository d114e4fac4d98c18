import QuizApp.Machine.Run
import QuizApp.Home.Form

/-! One mounted instance of `HomeScreen` as a machine.  An `await` splits an async
function: the call is made in one step, the native side settles it in another, and the
function goes on in a third.  `SetData`, `GetData` and `ReadScore` are the points at
which `setData`, `getData` and `checkFile().then(..)` can stand. -/

namespace QuizApp.Home

open Js

def Field.next : Field → Option Field
  | .firstName => some .lastName
  | .lastName => some .nickName
  | .nickName => some .age
  | .age => none

/-- The identifiers `HomeScreen.js` imports or declares at the top level. -/
def moduleScope : List String :=
  ["React", "Component", "SafeAreaView", "StyleSheet", "ScrollView", "View", "Text", "TextInput",
    "TouchableOpacity", "Colors", "AsyncStorage", "RNFS", "path", "HomeScreen", "styles"]

def alert (message : String) : Except JsError (List Effect) :=
  if "Alert" ∈ moduleScope then .ok [.alert message] else .error (.referenceError "Alert")

-- no caller handles the promises of `setData`, `getData` and `readFile`
def catchBlock (message : String) : List Effect :=
  match alert message with
  | .ok effects => effects
  | .error error => [.unhandledRejection error]

theorem catchBlock_eq (message : String) :
    catchBlock message = [.unhandledRejection (.referenceError "Alert")] := by
  simp [catchBlock, alert, moduleScope]

inductive SetData
  | calling (key : Field) (value : Option JsString)
  | settled (key : Field) (ok : Bool)
  deriving DecidableEq

def setData (s : State) : SetData := .calling .firstName s.values.firstName

def SetData.resume (s : State) (key : Field) (ok : Bool) : Option SetData × List Effect :=
  if ok then (key.next.map fun k => .calling k (s.values.get k), [])
  else (none, catchBlock "Failed to store data in Async Storage")

inductive GetData
  | firstName
  | lastName (firstNameValue : Option JsString)
  | nickName (firstNameValue lastNameValue : Option JsString)
  | age (firstNameValue lastNameValue nickNameValue : Option JsString)
  deriving DecidableEq

def GetData.key : GetData → Field
  | .firstName => .firstName
  | .lastName _ => .lastName
  | .nickName _ _ => .nickName
  | .age _ _ _ => .age

def GetData.resume : GetData → Option JsString → GetData ⊕ Profile (Option JsString)
  | .firstName, value => .inl (.lastName value)
  | .lastName firstNameValue, value => .inl (.nickName firstNameValue value)
  | .nickName firstNameValue lastNameValue, value => .inl (.age firstNameValue lastNameValue value)
  | .age firstNameValue lastNameValue nickNameValue, value =>
    .inr ⟨firstNameValue, lastNameValue, nickNameValue, value⟩

def Found (read : Profile (Option JsString)) : Prop :=
  read.firstName ≠ none ∨ read.lastName ≠ none ∨ read.nickName ≠ none ∨ read.age ≠ none

instance (read : Profile (Option JsString)) : Decidable (Found read) :=
  inferInstanceAs (Decidable (_ ∨ _))

def State.load (s : State) (read : Profile (Option JsString)) : State :=
  if Found read then { s with values := read } else s

inductive Load
  | calling (point : GetData)
  | settled (point : GetData) (reply : Reply (Option JsString))
  deriving DecidableEq

inductive ReadScore
  | checkFile
  | checkFileSettled (reply : Reply Bool)
  | readFile
  | readFileSettled (reply : Reply JsString)
  deriving DecidableEq

def openQuizScreen (s : State) : Except JsError (State × List SetData × List Effect) := do
  let (valid, s) ← validate s
  -- the promise of `setData` is not awaited
  if valid then return (s, [setData s], [.replace .quizScreen]) else return (s, [], [])

structure Instance where
  state : State := {}
  saves : List SetData := []
  load : Option Load := some (.calling .firstName)
  readScore : Option ReadScore := some .checkFile
  mounted : Bool := true
  deriving DecidableEq

inductive Event
  | edit (f : Field) (val : Option JsString)
  | login
  | settleSave (i : Nat) (ok : Bool)
  | resumeSave (i : Nat)
  | settleLoad (reply : Reply (Option JsString))
  | resumeLoad
  | settleExists (reply : Reply Bool)
  | settleRead (reply : Reply JsString)
  | resumeScore
  | unmount
  deriving DecidableEq

-- on an unmounted component `setState` does nothing
def Instance.setState (h : Instance) (s : State) : Instance :=
  if h.mounted then { h with state := s } else h

@[simp] theorem Instance.setState_saves (h : Instance) (s : State) :
    (h.setState s).saves = h.saves := by
  simp only [setState]
  split <;> rfl

@[simp] theorem Instance.setState_load (h : Instance) (s : State) :
    (h.setState s).load = h.load := by
  simp only [setState]
  split <;> rfl

@[simp] theorem Instance.setState_readScore (h : Instance) (s : State) :
    (h.setState s).readScore = h.readScore := by
  simp only [setState]
  split <;> rfl

theorem Instance.setState_values (h : Instance) {s : State} (hs : s.values = h.state.values) :
    (h.setState s).state.values = h.state.values := by
  simp only [setState]
  split
  · exact hs
  · rfl

theorem Instance.setState_errors (h : Instance) {s : State} (hs : s.errors = h.state.errors) :
    (h.setState s).state.errors = h.state.errors := by
  simp only [setState]
  split
  · exact hs
  · rfl

def Instance.putSave (h : Instance) (i : Nat) : Option SetData → Instance
  | some save => { h with saves := h.saves.set i save }
  | none => { h with saves := h.saves.eraseIdx i }

def react (h : Instance) : Event → Option (Instance × List Effect)
  | .edit f val =>
    if h.mounted then some ({ h with state := onChangeText f h.state val }, []) else none
  | .login =>
    if h.mounted then
      match openQuizScreen h.state with
      | .ok (s, saves, effects) => some ({ h with state := s, saves := h.saves ++ saves }, effects)
      | .error _ => none
    else none
  | .settleSave i true =>
    match h.saves[i]? with
    | some (.calling key (some value)) =>
      some ({ h with saves := h.saves.set i (.settled key true) }, [.storeItem key.key value])
    | _ => none
  | .settleSave i false =>
    match h.saves[i]? with
    | some (.calling key _) => some ({ h with saves := h.saves.set i (.settled key false) }, [])
    | _ => none
  | .resumeSave i =>
    match h.saves[i]? with
    | some (.settled key ok) =>
      let (save, effects) := SetData.resume h.state key ok
      some (h.putSave i save, effects)
    | _ => none
  | .settleLoad reply =>
    match h.load with
    | some (.calling point) => some ({ h with load := some (.settled point reply) }, [])
    | _ => none
  | .resumeLoad =>
    match h.load with
    | some (.settled point (.fulfilled value)) =>
      match point.resume value with
      | .inl point => some ({ h with load := some (.calling point) }, [])
      | .inr read => some ({ h.setState (h.state.load read) with load := none }, [])
    | some (.settled _ .rejected) =>
      some ({ h with load := none }, catchBlock "Failed to fetch data from Async Storage")
    | _ => none
  | .settleExists reply =>
    match h.readScore with
    | some .checkFile => some ({ h with readScore := some (.checkFileSettled reply) }, [])
    | _ => none
  | .settleRead reply =>
    match h.readScore with
    | some .readFile => some ({ h with readScore := some (.readFileSettled reply) }, [])
    | _ => none
  | .resumeScore =>
    match h.readScore with
    | some (.checkFileSettled reply) =>
      some ({ h with readScore := if reply = .fulfilled true then some .readFile else none }, [])
    | some (.readFileSettled (.fulfilled fileData)) =>
      some ({ h.setState { h.state with scoreExists := true, score := fileData } with
        readScore := none }, [])
    | some (.readFileSettled .rejected) =>
      some ({ h with readScore := none }, catchBlock "Failed to read the score from File")
    | _ => none
  | .unmount => if h.mounted then some ({ h with mounted := false }, []) else none

def machine : Machine Instance Event where
  step h e := (react h e).map Prod.fst

/-- What an event can do to an instance, one constructor for each branch of the handlers
and of the code after each `await`. -/
inductive Reacts (h : Instance) : Event → Instance → List Effect → Prop
  | edit {f : Field} {val : Option JsString} : h.mounted = true →
      Reacts h (.edit f val) { h with state := inputHandler f h.state val } []
  | rejected {faults : Profile Bool} : h.mounted = true →
      (∀ f : Field, f.check (h.state.values.get f) = .ok (faults.get f)) → faults.hasFault = true →
      Reacts h .login { h with state := { h.state with errors := faults } } []
  | accepted : h.mounted = true →
      (∀ f : Field, f.check (h.state.values.get f) = .ok false) →
      Reacts h .login { h with saves := h.saves ++ [setData h.state] } [.replace .quizScreen]
  | storeItem {i : Nat} {key : Field} {value : JsString} :
      h.saves[i]? = some (.calling key (some value)) →
      Reacts h (.settleSave i true) { h with saves := h.saves.set i (.settled key true) }
        [.storeItem key.key value]
  | failItem {i : Nat} {key : Field} {value : Option JsString} :
      h.saves[i]? = some (.calling key value) →
      Reacts h (.settleSave i false) { h with saves := h.saves.set i (.settled key false) } []
  | saveNext {i : Nat} {key next : Field} : h.saves[i]? = some (.settled key true) →
      key.next = some next →
      Reacts h (.resumeSave i)
        { h with saves := h.saves.set i (.calling next (h.state.values.get next)) } []
  | saveDone {i : Nat} {key : Field} : h.saves[i]? = some (.settled key true) → key.next = none →
      Reacts h (.resumeSave i) { h with saves := h.saves.eraseIdx i } []
  | saveFailed {i : Nat} {key : Field} : h.saves[i]? = some (.settled key false) →
      Reacts h (.resumeSave i) { h with saves := h.saves.eraseIdx i }
        (catchBlock "Failed to store data in Async Storage")
  | settleLoad {point : GetData} {reply : Reply (Option JsString)} :
      h.load = some (.calling point) →
      Reacts h (.settleLoad reply) { h with load := some (.settled point reply) } []
  | loadNext {point next : GetData} {value : Option JsString} :
      h.load = some (.settled point (.fulfilled value)) → point.resume value = .inl next →
      Reacts h .resumeLoad { h with load := some (.calling next) } []
  | loadDone {point : GetData} {value : Option JsString} {read : Profile (Option JsString)} :
      h.load = some (.settled point (.fulfilled value)) → point.resume value = .inr read →
      Reacts h .resumeLoad { h.setState (h.state.load read) with load := none } []
  | loadFailed {point : GetData} : h.load = some (.settled point .rejected) →
      Reacts h .resumeLoad { h with load := none }
        (catchBlock "Failed to fetch data from Async Storage")
  | settleExists {reply : Reply Bool} : h.readScore = some .checkFile →
      Reacts h (.settleExists reply) { h with readScore := some (.checkFileSettled reply) } []
  | settleRead {reply : Reply JsString} : h.readScore = some .readFile →
      Reacts h (.settleRead reply) { h with readScore := some (.readFileSettled reply) } []
  | checked {reply : Reply Bool} : h.readScore = some (.checkFileSettled reply) →
      Reacts h .resumeScore
        { h with readScore := if reply = .fulfilled true then some .readFile else none } []
  | readDone {fileData : JsString} : h.readScore = some (.readFileSettled (.fulfilled fileData)) →
      Reacts h .resumeScore
        { h.setState { h.state with scoreExists := true, score := fileData } with
          readScore := none } []
  | readFailed : h.readScore = some (.readFileSettled .rejected) →
      Reacts h .resumeScore { h with readScore := none }
        (catchBlock "Failed to read the score from File")
  | unmount : h.mounted = true → Reacts h .unmount { h with mounted := false } []

theorem openQuizScreen_of_checks {s : State} {faults : Profile Bool}
    (h : ∀ f : Field, f.check (s.values.get f) = .ok (faults.get f)) :
    openQuizScreen s = .ok (if faults.hasFault then ({ s with errors := faults }, [], [])
      else (s, [setData s], [.replace .quizScreen])) := by
  simp only [openQuizScreen, validate_of_checks h, bind, Except.bind, pure, Except.pure]
  cases faults.hasFault <;> rfl

theorem checks_of_openQuizScreen {s : State} {r : State × List SetData × List Effect}
    (h : openQuizScreen s = .ok r) :
    ∃ faults : Profile Bool, ∀ f : Field, f.check (s.values.get f) = .ok (faults.get f) := by
  apply exists_checks
  cases hv : validate s with
  | ok r => exact strings_of_validate hv
  | error e => simp [openQuizScreen, hv, bind, Except.bind] at h

theorem reacts_of_login {h r : Instance} {fx : List Effect} (hr : react h .login = some (r, fx)) :
    Reacts h .login r fx := by
  simp only [react] at hr
  split at hr
  case isFalse => cases hr
  case isTrue hmounted =>
    cases ho : openQuizScreen h.state with
    | error e =>
      rw [ho] at hr
      cases hr
    | ok o =>
      obtain ⟨faults, hf⟩ := checks_of_openQuizScreen ho
      rw [openQuizScreen_of_checks hf] at hr
      cases hfault : faults.hasFault with
      | true =>
        simp only [hfault, if_true, List.append_nil, Option.some.injEq, Prod.mk.injEq] at hr
        obtain ⟨rfl, rfl⟩ := hr
        exact .rejected hmounted hf hfault
      | false =>
        simp only [hfault, Bool.false_eq_true, if_false, Option.some.injEq, Prod.mk.injEq] at hr
        obtain ⟨rfl, rfl⟩ := hr
        refine .accepted hmounted ?_
        intro f
        rw [hf f, Profile.hasFault_eq_false.mp hfault f]

theorem reacts_of_react {h r : Instance} {e : Event} {fx : List Effect}
    (hr : react h e = some (r, fx)) : Reacts h e r fx := by
  cases e with
  | edit f val =>
    simp only [react, onChangeText_eq] at hr
    split at hr <;> cases hr
    exact .edit ‹_›
  | login => exact reacts_of_login hr
  | settleSave i ok =>
    cases ok <;> simp only [react] at hr <;> split at hr <;> cases hr
    · exact .failItem ‹_›
    · exact .storeItem ‹_›
  | resumeSave i =>
    simp only [react] at hr
    split at hr <;> cases hr
    rename_i key ok hi
    cases ok with
    | false => exact .saveFailed hi
    | true =>
      cases hnext : key.next with
      | none =>
        simp only [SetData.resume, if_true, hnext, Option.map_none, Instance.putSave]
        exact .saveDone hi hnext
      | some next =>
        simp only [SetData.resume, if_true, hnext, Option.map_some, Instance.putSave]
        exact .saveNext hi hnext
  | settleLoad reply =>
    simp only [react] at hr
    split at hr <;> cases hr
    exact .settleLoad ‹_›
  | resumeLoad =>
    simp only [react] at hr
    split at hr
    · split at hr <;> cases hr
      · exact .loadNext ‹_› ‹_›
      · exact .loadDone ‹_› ‹_›
    · cases hr
      exact .loadFailed ‹_›
    · cases hr
  | settleExists reply =>
    simp only [react] at hr
    split at hr <;> cases hr
    exact .settleExists ‹_›
  | settleRead reply =>
    simp only [react] at hr
    split at hr <;> cases hr
    exact .settleRead ‹_›
  | resumeScore =>
    simp only [react] at hr
    split at hr <;> cases hr
    · exact .checked ‹_›
    · exact .readDone ‹_›
    · exact .readFailed ‹_›
  | unmount =>
    simp only [react] at hr
    split at hr <;> cases hr
    exact .unmount ‹_›

theorem react_of_reacts {h r : Instance} {e : Event} {fx : List Effect} (hr : Reacts h e r fx) :
    react h e = some (r, fx) := by
  cases hr with
  | edit hm => simp [react, hm, onChangeText_eq]
  | rejected hm hf hfault => simp [react, hm, openQuizScreen_of_checks hf, hfault]
  | accepted hm hf =>
    have hf' : ∀ f : Field, f.check (h.state.values.get f) =
        .ok ((Profile.replicate false).get f) := by simpa using hf
    simp [react, hm, openQuizScreen_of_checks hf', Profile.hasFault_eq_false.mpr]
  | saveNext hi hnext => simp [react, hi, SetData.resume, hnext, Instance.putSave]
  | saveDone hi hnext => simp [react, hi, SetData.resume, hnext, Instance.putSave]
  | saveFailed hi => simp [react, hi, SetData.resume, Instance.putSave]
  | loadNext hl hp => simp [react, hl, hp]
  | loadDone hl hp => simp [react, hl, hp]
  | _ => simp [react, *]

theorem react_iff (h : Instance) (e : Event) (r : Instance) (fx : List Effect) :
    react h e = some (r, fx) ↔ Reacts h e r fx :=
  ⟨reacts_of_react, react_of_reacts⟩

theorem reacts_storeItem {h r : Instance} {i : Nat} {key : Field} {value : JsString}
    (hr : Reacts h (.settleSave i true) r [.storeItem key.key value]) :
    h.saves[i]? = some (.calling key (some value)) ∧
      r = { h with saves := h.saves.set i (.settled key true) } := by
  generalize hfx : [Effect.storeItem key.key value] = fx at hr
  cases hr with
  | @storeItem _ key' _ hi =>
    simp only [List.cons.injEq, Effect.storeItem.injEq, and_true] at hfx
    obtain ⟨hkey, rfl⟩ := hfx
    cases Field.key_injective hkey
    exact ⟨hi, rfl⟩

theorem step_iff (h : Instance) (e : Event) (r : Instance) :
    machine.step h e = some r ↔ ∃ fx, Reacts h e r fx := by
  simp [machine, ← react_iff]

end QuizApp.Home
