import QuizApp.Quiz.Submission

namespace QuizApp.Quiz

open Js

structure Tally where
  picks : List Nat := []
  selection : Option Nat := none
  deriving DecidableEq

-- a press on the last of `N` questions leaves its option selected
def tally (N : Nat) : Machine Tally Input where
  step t
    | .tap key => some { t with selection := some key }
    | .press => t.selection.map fun key =>
      { picks := t.picks ++ [key]
        selection := if t.picks.length + 1 < N then none else some key }

/-- Every pick after the last question counts for the last question again. -/
def CustomData.marks (customData : CustomData) (N : Nat) (picks : List Nat) : Nat :=
  (picks.zipIdx 1).countP fun p => customData.identical (min p.2 N) p.1

theorem CustomData.marks_snoc (customData : CustomData) (N : Nat) (picks : List Nat) (key : Nat) :
    customData.marks N (picks ++ [key]) = customData.marks N picks +
      (customData.identical (min (picks.length + 1) N) key).toNat := by
  cases h : customData.identical (min (picks.length + 1) N) key <;>
    simp [CustomData.marks, List.zipIdx_append, Nat.add_comm 1, h]

def Event.inputs : Event → List Input
  | .input i => [i]
  | _ => []

def calls (customData : CustomData) (q : Instance) (e : Event) : List JsString :=
  (react customData q e).elim [] fun r => callsOf r.2

def CustomData.submissions (customData : CustomData) (N : Nat) (picks : List Nat) : List JsString :=
  (List.range' N (picks.length + 1 - N)).map fun j => numeral (customData.marks N (picks.take j))

structure Tallied {N : Nat} (b : Bank N) (q : Instance) (t : Tally) (calls : List JsString) :
    Prop where
  currentQuestion : q.state.currentQuestion = min (t.picks.length + 1) N
  questionCount : q.state.questionCount = N
  correctCount : q.state.correctCount = b.customData.marks N t.picks
  selectedOption : q.state.selectedOption = t.selection.elim (-1) Int.ofNat
  answered : q.state.answered = t.selection.isSome
  lastQuestion : q.state.lastQuestion = decide (N ≤ t.picks.length + 1)
  slots : ∀ key ∈ t.picks ++ t.selection.toList, 1 ≤ key ∧ key ≤ 4
  calls : calls = b.customData.submissions N t.picks

theorem CustomData.submissions_of_lt {customData : CustomData} {N : Nat} {picks : List Nat}
    (h : picks.length < N) : customData.submissions N picks = [] := by
  rw [CustomData.submissions, Nat.sub_eq_zero_of_le h]
  rfl

theorem CustomData.submissions_snoc {customData : CustomData} {N : Nat} {picks : List Nat}
    (h : N ≤ picks.length + 1) (key : Nat) :
    customData.submissions N (picks ++ [key]) =
      customData.submissions N picks ++ [numeral (customData.marks N (picks ++ [key]))] := by
  have hlength : (picks ++ [key]).length + 1 - N = picks.length + 1 - N + 1 := by
    rw [List.length_append, List.length_singleton]
    omega
  have hlast : (picks ++ [key]).take (N + 1 * (picks.length + 1 - N)) = picks ++ [key] := by
    apply List.take_of_length_le
    rw [List.length_append, List.length_singleton]
    omega
  rw [CustomData.submissions, hlength, List.range'_concat, List.map_append, List.map_singleton,
    hlast, CustomData.submissions]
  congr 1
  apply List.map_congr_left
  intro j hj
  rw [List.mem_range'_1] at hj
  rw [List.take_append_of_le_length (by omega)]

@[simp] theorem State.score_lastQuestion (s : State) (c : Bool) :
    (s.score c).lastQuestion = s.lastQuestion := by cases c <;> rfl

namespace Tallied

variable {N : Nat} {b : Bank N} {q r : Instance} {t : Tally} {calls : List JsString}

theorem fresh (b : Bank N) : Tallied b (.fresh b.customData) {} [] where
  currentQuestion := (Nat.min_eq_left b.pos).symm
  questionCount := b.totalQuestions_eq
  correctCount := rfl
  selectedOption := rfl
  answered := rfl
  lastQuestion := by
    have hpos := b.pos
    simp [Instance.fresh, State.rendered, State.initial, State.isLast, b.totalQuestions_eq]
    omega
  slots := by simp
  calls := (CustomData.submissions_of_lt b.pos).symm

theorem isLast_iff (h : Tallied b q t calls) :
    q.state.currentQuestion = q.state.questionCount ↔ N ≤ t.picks.length + 1 := by
  rw [h.currentQuestion, h.questionCount]
  omega

theorem correct_eq (h : Tallied b q t calls) {key : Nat} (hkey : t.selection = some key) :
    b.customData.correct q.state =
      b.customData.identical (min (t.picks.length + 1) N) key := by
  have hpos := b.pos
  have hcurrent := h.currentQuestion
  have hselected : q.state.selectedOption = key := by simp [h.selectedOption, hkey]
  rw [b.correct_eq (by omega) (by omega) hselected, hcurrent]

theorem tap (h : Tallied b q t calls) {key : Nat} (hpos : 1 ≤ key) (hle : key ≤ 4) :
    Tallied b { q with state := (q.state.select key).rendered } { t with selection := some key }
      calls where
  currentQuestion := h.currentQuestion
  questionCount := h.questionCount
  correctCount := h.correctCount
  selectedOption := rfl
  answered := rfl
  lastQuestion := by
    simp only [State.rendered, State.select, State.isLast, h.isLast_iff, h.lastQuestion, Bool.or_self]
  slots k hk := by
    rcases List.mem_append.mp hk with hk | hk
    · exact h.slots k (List.mem_append_left _ hk)
    · cases List.mem_singleton.mp hk
      exact ⟨hpos, hle⟩
  calls := h.calls

theorem next (h : Tallied b q t calls) {key : Nat} (hkey : t.selection = some key)
    (hlast : q.state.currentQuestion ≠ q.state.questionCount) :
    Tallied b { q with state := (q.state.score (b.customData.correct q.state)).advance.rendered }
      { picks := t.picks ++ [key], selection := none } calls := by
  rw [Ne, h.isLast_iff, Nat.not_le] at hlast
  have hcurrent := h.currentQuestion
  have hcount := h.questionCount
  have hquestion : q.state.currentQuestion + 1 = min ((t.picks ++ [key]).length + 1) N := by
    rw [List.length_append, List.length_singleton]
    omega
  refine ⟨?_, ?_, ?_, rfl, rfl, ?_, by simpa [hkey] using h.slots, ?_⟩
  · simpa [State.rendered, State.advance] using hquestion
  · simpa [State.rendered, State.advance] using hcount
  · rw [CustomData.marks_snoc, ← h.correct_eq hkey, ← h.correctCount]
    simp [State.rendered, State.advance]
  · have hnot : ¬ N ≤ t.picks.length + 1 := by omega
    simp only [State.rendered, State.advance, State.isLast, State.score_currentQuestion,
      State.score_questionCount, State.score_lastQuestion, h.lastQuestion, hnot, hquestion, hcount,
      decide_false, Bool.false_or]
    rw [List.length_append, List.length_singleton]
    exact decide_eq_decide.mpr (by omega)
  · have hlength : (t.picks ++ [key]).length < N := by
      rw [List.length_append, List.length_singleton]
      exact hlast
    rw [h.calls, CustomData.submissions_of_lt (by omega), CustomData.submissions_of_lt hlength]

theorem submit (h : Tallied b q t calls) {key : Nat} (hkey : t.selection = some key)
    (hlast : q.state.currentQuestion = q.state.questionCount) :
    Tallied b
      { q with
        state := q.state.score (b.customData.correct q.state)
        writes := q.writes ++
          [.calling (numeral (q.state.score (b.customData.correct q.state)).correctCount)] }
      { picks := t.picks ++ [key], selection := some key }
      (calls ++ [numeral (q.state.score (b.customData.correct q.state)).correctCount]) := by
  rw [h.isLast_iff] at hlast
  have hcurrent := h.currentQuestion
  have hmarks : (q.state.score (b.customData.correct q.state)).correctCount =
      b.customData.marks N (t.picks ++ [key]) := by
    rw [CustomData.marks_snoc, ← h.correct_eq hkey, ← h.correctCount, State.score_correctCount]
  refine ⟨?_, ?_, hmarks, ?_, ?_, ?_, ?_, ?_⟩
  · rw [State.score_currentQuestion, List.length_append, List.length_singleton]
    omega
  · simpa using h.questionCount
  · simpa [hkey] using h.selectedOption
  · simpa [hkey] using h.answered
  · rw [State.score_lastQuestion, h.lastQuestion, List.length_append, List.length_singleton]
    exact decide_eq_decide.mpr (by omega)
  · intro k hk
    apply h.slots
    simpa [hkey] using hk
  · rw [h.calls, hmarks, CustomData.submissions_snoc hlast]

theorem keep (h : Tallied b q t calls) (hstate : r.state = q.state) : Tallied b r t calls where
  currentQuestion := hstate ▸ h.currentQuestion
  questionCount := hstate ▸ h.questionCount
  correctCount := hstate ▸ h.correctCount
  selectedOption := hstate ▸ h.selectedOption
  answered := hstate ▸ h.answered
  lastQuestion := hstate ▸ h.lastQuestion
  slots := h.slots
  calls := h.calls

theorem step (h : Tallied b q t calls) {e : Event} {fx : List Effect}
    (hr : Reacts b.customData q e r fx) :
    ∃ t', (tally N).run t e.inputs = some t' ∧ Tallied b r t' (calls ++ callsOf fx) := by
  cases hr with
  | @tap key _ _ hpos hle =>
    refine ⟨_, rfl, ?_⟩
    simpa [callsOf] using h.tap hpos hle
  | next _ _ hanswered hlast =>
    rw [h.answered, Option.isSome_iff_exists] at hanswered
    obtain ⟨key, hkey⟩ := hanswered
    have hlt : t.picks.length + 1 < N := by
      rw [Ne, h.isLast_iff] at hlast
      omega
    refine ⟨{ picks := t.picks ++ [key], selection := none }, ?_, ?_⟩
    · simp [Event.inputs, Machine.run, tally, hkey, hlt]
    · simpa [callsOf] using h.next hkey hlast
  | submit _ _ hanswered hlast =>
    rw [h.answered, Option.isSome_iff_exists] at hanswered
    obtain ⟨key, hkey⟩ := hanswered
    have hle : ¬ t.picks.length + 1 < N := Nat.not_lt.mpr (h.isLast_iff.mp hlast)
    refine ⟨{ picks := t.picks ++ [key], selection := some key }, ?_, h.submit hkey hlast⟩
    simp [Event.inputs, Machine.run, tally, hkey, hle]
  | @settle i ok content hi =>
    refine ⟨t, rfl, ?_⟩
    have hcalls : callsOf (if ok then [Effect.storeFile content] else []) = [] := by
      cases ok <;> rfl
    rw [hcalls, List.append_nil]
    exact h.keep rfl
  | @resume i ok hi =>
    refine ⟨t, rfl, ?_⟩
    have hcalls : callsOf (afterWrite ok) = [] := by cases ok <;> rfl
    rw [hcalls, List.append_nil]
    exact h.keep rfl
  | unmount =>
    refine ⟨t, rfl, ?_⟩
    rw [callsOf, List.append_nil]
    exact h.keep rfl

end Tallied

theorem calls_eq {customData : CustomData} {q r : Instance} {e : Event} {fx : List Effect}
    (h : Reacts customData q e r fx) : calls customData q e = callsOf fx := by
  simp [calls, (react_iff customData q e r fx).mpr h]

theorem exists_tallied {N : Nat} (b : Bank N) {es : List Event} {q : Instance}
    (hrun : (machine b.customData).run (.fresh b.customData) es = some q) :
    ∃ t, (tally N).run {} (es.flatMap Event.inputs) = some t ∧
      Tallied b q t ((machine b.customData).log (calls b.customData) (.fresh b.customData) es) := by
  induction es using List.reverseRecOn generalizing q with
  | nil =>
    cases hrun
    exact ⟨{}, rfl, .fresh b⟩
  | append_singleton es e ih =>
    obtain ⟨r, hr, hstep⟩ := (Machine.run_snoc _ _ _ _ _).mp hrun
    obtain ⟨t, ht, htallied⟩ := ih hr
    obtain ⟨fx, hreacts⟩ := (step_iff b.customData r e q).mp hstep
    obtain ⟨t', ht', htallied'⟩ := htallied.step hreacts
    refine ⟨t', ?_, ?_⟩
    · rw [List.flatMap_append, List.flatMap_singleton, Machine.run_append, ht]
      exact ht'
    · rw [Machine.log_snoc _ _ _ _ hr, calls_eq hreacts]
      exact htallied'

-- the colours `'#006400'` and `Colors.black`
inductive BackgroundColor
  | darkGreen | black
  deriving DecidableEq

structure OptionButton where
  key : Nat
  text : Option JsString
  backgroundColor : BackgroundColor
  deriving DecidableEq

structure Page where
  question : JsString
  questionOptions : List OptionButton
  nextButton : Option ButtonText
  deriving DecidableEq

def page (customData : CustomData) (s : State) : Except JsError Page := do
  let (_, view) ← render customData s
  return {
    question := numeral view.question.1 ++ .lit "). " ++ view.question.2.getD [] ++ .lit " "
    questionOptions := view.questionOptions.map fun (i, text) =>
      { key := i, text, backgroundColor := if s.selectedOption = i then .darkGreen else .black }
    nextButton := view.nextButton }

theorem Bank.questions_isSome {N : Nat} (b : Bank N) {i : Nat} (hpos : 1 ≤ i) (hle : i ≤ N) :
    (b.customData.questions.at? i).isSome :=
  JsObject.at?_isSome_of_numbered b.questions_keys hpos hle

def Tally.page (customData : CustomData) (N : Nat) (t : Tally) (question : JsString) : Page :=
  let k := min (t.picks.length + 1) N
  { question := numeral k ++ .lit "). " ++ question ++ .lit " "
    questionOptions := (List.range' 1 4).map fun i =>
      { key := i
        text := customData.optionText k i
        backgroundColor := if t.selection = some i then .darkGreen else .black }
    nextButton := t.selection.map fun _ => if N ≤ t.picks.length + 1 then .submit else .next }

theorem Tallied.page_eq {N : Nat} {b : Bank N} {q : Instance} {t : Tally} {calls : List JsString}
    (h : Tallied b q t calls) : ∃ question,
      b.customData.questions.at? (min (t.picks.length + 1) N : Nat) = some question ∧
      page b.customData q.state = .ok (t.page b.customData N question) := by
  have hpos := b.pos
  have hcurrent := h.currentQuestion
  obtain ⟨slots, hslots⟩ := Option.isSome_iff_exists.mp
    (b.options_isSome (i := q.state.currentQuestion) (by omega) (by omega))
  obtain ⟨question, hquestion⟩ := Option.isSome_iff_exists.mp
    (b.questions_isSome (i := q.state.currentQuestion) (by omega) (by omega))
  refine ⟨question, hcurrent ▸ hquestion, ?_⟩
  have hselected : ∀ i : Nat, q.state.selectedOption = i ↔ t.selection = some i := by
    intro i
    rw [h.selectedOption]
    cases t.selection with
    | none => simp
    | some key =>
      simp only [Option.elim_some, Int.ofNat_eq_natCast, Option.some.injEq]
      omega
  have hbutton : (if q.state.answered then some (if q.state.isLast then ButtonText.submit else .next)
      else none) =
      t.selection.map fun _ => if N ≤ t.picks.length + 1 then .submit else .next := by
    simp only [h.answered, State.isLast, h.isLast_iff, decide_eq_true_eq]
    cases t.selection <;> rfl
  simp only [page, render, slots_of_at? hslots, bind, Except.bind, pure, Except.pure, hbutton,
    Tally.page, ← hcurrent, hquestion, CustomData.optionText, hslots, Option.bind_some,
    Option.getD_some, List.map_map, Function.comp_def, hselected]

/-- In every state of every run of an instance, its fields and the page it renders are those
of the tally of its inputs, and it has handed to `RNFS.writeFile` the marks of each press from
the `N`-th on. -/
theorem quiz_follows_tally {N : Nat} (b : Bank N) {es : List Event} {q : Instance}
    (hrun : (machine b.customData).run (.fresh b.customData) es = some q) :
    ∃ t question, (tally N).run {} (es.flatMap Event.inputs) = some t ∧
      Tallied b q t ((machine b.customData).log (calls b.customData) (.fresh b.customData) es) ∧
      b.customData.questions.at? (min (t.picks.length + 1) N : Nat) = some question ∧
      page b.customData q.state = .ok (t.page b.customData N question) := by
  obtain ⟨t, ht, h⟩ := exists_tallied b hrun
  obtain ⟨question, hquestion, hpage⟩ := h.page_eq
  exact ⟨t, question, ht, h, hquestion, hpage⟩

def threeSubmissions : List Event :=
  (fullMarks.map .input) ++ [.input (.tap 2), .input .press, .settle 1 false, .input (.tap 1),
    .resume 1, .input .press]

theorem threeSubmissions_tallied :
    ∃ q t question, (machine customData).run (.fresh customData) threeSubmissions = some q ∧
      (tally 4).run {} (threeSubmissions.flatMap Event.inputs) = some t ∧
      Tallied bank q t [numeral 4, numeral 4, numeral 5] ∧
      customData.questions.at? (min (t.picks.length + 1) 4 : Nat) = some question ∧
      page customData q.state = .ok (t.page customData 4 question) := by
  have hend : ((machine customData).run (.fresh customData) threeSubmissions).isSome := by decide
  obtain ⟨q, hrun⟩ := Option.isSome_iff_exists.mp hend
  obtain ⟨t, question, ht, h, hquestion, hpage⟩ := quiz_follows_tally bank hrun
  have hcalls : (machine customData).log (calls customData) (.fresh customData) threeSubmissions =
      [numeral 4, numeral 4, numeral 5] := by decide
  exact ⟨q, t, question, hrun, ht, hcalls ▸ h, hquestion, hpage⟩

end QuizApp.Quiz
