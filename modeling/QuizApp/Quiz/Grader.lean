import QuizApp.Quiz.Data

namespace QuizApp.Quiz

open Js

/-- The reference: the options graded so far, one for each question advanced, and the last
one tapped since. -/
structure Grader where
  graded : List Nat := []
  last : Option Nat := none
  deriving DecidableEq

def grader : Machine Grader Input where
  step g
    | .tap key => some { g with last := some key }
    | .press => g.last.map fun key => { graded := g.graded ++ [key], last := none }

def CustomData.identical (customData : CustomData) (q o : Nat) : Bool :=
  match customData.optionText q o, customData.answers.at? q with
  | some text, some answer => text = answer
  | _, _ => false

def Grader.score (customData : CustomData) (g : Grader) : Nat :=
  (g.graded.zipIdx 1).countP fun p => customData.identical p.2 p.1

theorem Grader.score_press (customData : CustomData) (g : Grader) (key : Nat) :
    Grader.score customData { graded := g.graded ++ [key], last := none } =
      g.score customData + (customData.identical (g.graded.length + 1) key).toNat := by
  cases h : customData.identical (g.graded.length + 1) key <;>
    simp [Grader.score, List.zipIdx_append, Nat.add_comm 1, h]

def advanced (q : Instance) : Event → List Nat
  | .input .press => [q.state.currentQuestion]
  | _ => []

theorem Bank.options_isSome {N : Nat} (b : Bank N) {i : Nat} (hpos : 1 ≤ i) (hle : i ≤ N) :
    (b.customData.options.at? i).isSome :=
  JsObject.at?_isSome_of_numbered b.options_keys hpos hle

theorem Bank.answers_isSome {N : Nat} (b : Bank N) {i : Nat} (hpos : 1 ≤ i) (hle : i ≤ N) :
    (b.customData.answers.at? i).isSome :=
  JsObject.at?_isSome_of_numbered b.answers_keys hpos hle

theorem Bank.totalQuestions_eq {N : Nat} (b : Bank N) : b.customData.totalQuestions = N := by
  rw [CustomData.totalQuestions, b.questions_keys.length_eq]
  simp [numberedKeys]

theorem Bank.mount_eq {N : Nat} (b : Bank N) :
    mount b.customData = .ok (Instance.fresh b.customData).state :=
  setState_of_isSome (b.options_isSome (i := 1) (Nat.le_refl 1) b.pos)

theorem Bank.correct_eq {N : Nat} (b : Bank N) {s : State} {key : Nat}
    (hpos : 1 ≤ s.currentQuestion) (hle : s.currentQuestion ≤ N) (hkey : s.selectedOption = key) :
    b.customData.correct s = b.customData.identical s.currentQuestion key := by
  obtain ⟨answer, hanswer⟩ := Option.isSome_iff_exists.mp (b.answers_isSome hpos hle)
  rw [CustomData.correct, CustomData.identical, hkey, hanswer]
  cases b.customData.optionText s.currentQuestion key with
  | none => simp
  | some text => simp [eq_comm]

/-- The instance `q` is where the grader `g` is, `order` being the questions advanced so far. -/
structure Simulates {N : Nat} (b : Bank N) (q : Instance) (g : Grader) (order : List Nat) : Prop where
  mounted : q.mounted = true
  one_le : 1 ≤ q.state.currentQuestion
  le_count : q.state.currentQuestion ≤ N
  questionCount_eq : q.state.questionCount = N
  slots_defined : (b.customData.options.at? q.state.currentQuestion).isSome
  answered_iff : q.state.answered = true ↔ 1 ≤ q.state.selectedOption ∧ q.state.selectedOption ≤ 4
  unanswered : q.state.answered = false → q.state.selectedOption = -1
  order_eq : order = List.range' 1 g.graded.length
  correctCount_eq : q.state.correctCount = g.score b.customData
  ongoing : q.writes = [] → g.graded.length + 1 = q.state.currentQuestion ∧
    g.last.map Int.ofNat = if q.state.answered then some q.state.selectedOption else none
  submitted : q.writes ≠ [] → g.graded.length = N ∧ q.state.currentQuestion = N ∧
    q.writes = [.calling (numeral (g.score b.customData))]

namespace Simulates

variable {N : Nat} {b : Bank N} {q : Instance} {g : Grader} {order : List Nat}

theorem fresh (b : Bank N) : Simulates b (.fresh b.customData) {} [] where
  mounted := rfl
  one_le := Nat.le_refl 1
  le_count := b.pos
  questionCount_eq := b.totalQuestions_eq
  slots_defined := b.options_isSome (Nat.le_refl 1) b.pos
  answered_iff := by simp [Instance.fresh, State.initial, State.rendered]
  unanswered _ := rfl
  order_eq := rfl
  correctCount_eq := rfl
  ongoing _ := ⟨rfl, rfl⟩
  submitted h := absurd rfl h

theorem tap (h : Simulates b q g order) (hwrites : q.writes = []) {key : Nat}
    (hpos : 1 ≤ key) (hle : key ≤ 4) :
    Simulates b { q with state := (q.state.select key).rendered } { g with last := some key }
      order where
  mounted := h.mounted
  one_le := h.one_le
  le_count := h.le_count
  questionCount_eq := h.questionCount_eq
  slots_defined := h.slots_defined
  answered_iff := by
    simp only [State.rendered, State.select, true_iff]
    omega
  unanswered hn := by simp [State.rendered, State.select] at hn
  order_eq := h.order_eq
  correctCount_eq := h.correctCount_eq
  ongoing _ := ⟨(h.ongoing hwrites).1, rfl⟩
  submitted hn := absurd hwrites hn

theorem last_eq (h : Simulates b q g order) (hwrites : q.writes = [])
    (hanswered : q.state.answered = true) :
    ∃ key : Nat, g.last = some key ∧ q.state.selectedOption = key := by
  have hlast := (h.ongoing hwrites).2
  rw [hanswered, if_pos rfl, Option.map_eq_some_iff] at hlast
  obtain ⟨key, hkey, hsel⟩ := hlast
  exact ⟨key, hkey, hsel.symm⟩

theorem score_eq (h : Simulates b q g order) (hwrites : q.writes = []) {key : Nat}
    (hkey : q.state.selectedOption = key) :
    (q.state.score (b.customData.correct q.state)).correctCount =
      Grader.score b.customData { graded := g.graded ++ [key], last := none } := by
  rw [State.score_correctCount, Grader.score_press, h.correctCount_eq, (h.ongoing hwrites).1,
    b.correct_eq h.one_le h.le_count hkey]

theorem order_press (h : Simulates b q g order) (hwrites : q.writes = []) (key : Nat) :
    order ++ [q.state.currentQuestion] = List.range' 1 (g.graded ++ [key]).length := by
  rw [List.length_append, List.length_singleton, List.range'_concat, ← h.order_eq,
    ← (h.ongoing hwrites).1]
  simp [Nat.add_comm]

theorem next (h : Simulates b q g order) (hwrites : q.writes = []) {key : Nat}
    (hkey : q.state.selectedOption = key) (hlast : q.state.currentQuestion ≠ q.state.questionCount) :
    Simulates b
      { q with state := (q.state.score (b.customData.correct q.state)).advance.rendered }
      { graded := g.graded ++ [key], last := none } (order ++ [q.state.currentQuestion]) where
  mounted := h.mounted
  one_le := by simp [State.rendered, State.advance]
  le_count := by
    have := h.le_count
    have := h.questionCount_eq
    simp only [State.rendered, State.advance, State.score_currentQuestion]
    omega
  questionCount_eq := by simpa [State.rendered, State.advance] using h.questionCount_eq
  slots_defined := by
    have := h.le_count
    have := h.questionCount_eq
    simp only [State.rendered, State.advance, State.score_currentQuestion]
    exact b.options_isSome (by omega) (by omega)
  answered_iff := by simp [State.rendered, State.advance]
  unanswered _ := rfl
  order_eq := h.order_press hwrites key
  correctCount_eq := h.score_eq hwrites hkey
  ongoing _ := by simp [State.rendered, State.advance, (h.ongoing hwrites).1]
  submitted hn := absurd hwrites hn

theorem submit (h : Simulates b q g order) (hwrites : q.writes = []) {key : Nat}
    (hkey : q.state.selectedOption = key) (hlast : q.state.currentQuestion = q.state.questionCount) :
    Simulates b
      { q with
        state := q.state.score (b.customData.correct q.state)
        writes := q.writes ++
          [.calling (numeral (q.state.score (b.customData.correct q.state)).correctCount)] }
      { graded := g.graded ++ [key], last := none } (order ++ [q.state.currentQuestion]) where
  mounted := h.mounted
  one_le := by simpa using h.one_le
  le_count := by simpa using h.le_count
  questionCount_eq := by simpa using h.questionCount_eq
  slots_defined := by simpa using h.slots_defined
  answered_iff := by simpa using h.answered_iff
  unanswered := by simpa using h.unanswered
  order_eq := h.order_press hwrites key
  correctCount_eq := h.score_eq hwrites hkey
  ongoing hn := by simp at hn
  submitted _ := by
    refine ⟨?_, ?_, ?_⟩
    · simpa [← h.questionCount_eq, ← hlast] using (h.ongoing hwrites).1
    · simpa [h.questionCount_eq] using hlast
    · rw [hwrites, h.score_eq hwrites hkey]
      rfl

theorem step (h : Simulates b q g order) (hwrites : q.writes = []) {i : Input} {r : Instance}
    (hstep : (machine b.customData).step q (.input i) = some r) :
    ∃ g', grader.step g i = some g' ∧ Simulates b r g' (order ++ advanced q (.input i)) := by
  obtain ⟨fx, hr⟩ := (step_iff b.customData q _ r).mp hstep
  cases hr with
  | tap _ _ hpos hle => exact ⟨_, rfl, by simpa [advanced] using h.tap hwrites hpos hle⟩
  | next _ _ hanswered hlast _ =>
    obtain ⟨key, hg, hkey⟩ := h.last_eq hwrites hanswered
    exact ⟨_, by simp [grader, hg], h.next hwrites hkey hlast⟩
  | submit _ _ hanswered hlast =>
    obtain ⟨key, hg, hkey⟩ := h.last_eq hwrites hanswered
    exact ⟨_, by simp [grader, hg], h.submit hwrites hkey hlast⟩

theorem tap_step (h : Simulates b q g order) {key : Nat} (hpos : 1 ≤ key) (hle : key ≤ 4) :
    (machine b.customData).step q (.input (.tap key)) =
      some { q with state := (q.state.select key).rendered } :=
  (step_iff b.customData q _ _).mpr ⟨_, .tap h.slots_defined h.mounted hpos hle⟩

theorem next_step (h : Simulates b q g order) (hanswered : q.state.answered = true)
    (hne : q.state.currentQuestion ≠ q.state.questionCount) :
    (machine b.customData).step q (.input .press) = some
      { q with state := (q.state.score (b.customData.correct q.state)).advance.rendered } := by
  have hle : q.state.currentQuestion + 1 ≤ N := by
    have := h.le_count
    have := h.questionCount_eq
    omega
  have hslots := b.options_isSome (Nat.le_add_left 1 _) hle
  exact (step_iff b.customData q _ _).mpr ⟨_, .next h.slots_defined h.mounted hanswered hne hslots⟩

theorem tap_isSome (h : Simulates b q g order) {key : Nat} (hpos : 1 ≤ key) (hle : key ≤ 4) :
    ((machine b.customData).step q (.input (.tap key))).isSome :=
  Option.isSome_iff_exists.mpr ⟨_, h.tap_step hpos hle⟩

theorem press_isSome (h : Simulates b q g order) (hanswered : q.state.answered = true) :
    ((machine b.customData).step q (.input .press)).isSome := by
  apply Option.isSome_iff_exists.mpr
  by_cases hlast : q.state.currentQuestion = q.state.questionCount
  · exact ⟨_, (step_iff b.customData q _ _).mpr ⟨_, .submit h.slots_defined h.mounted hanswered hlast⟩⟩
  · exact ⟨_, h.next_step hanswered hlast⟩

end Simulates

/-- Up to and including the first press made on the last question, the screen is
simulated by the reference grader, and no tap or press that it offers fails. -/
theorem quiz_simulated_by_grader {N : Nat} (b : Bank N) (inputs : List Input) (q : Instance)
    (hrun : (machine b.customData).run (.fresh b.customData) (inputs.map .input) = some q)
    (hfirst : (machine b.customData).Meets advanced (fun r _ _ => r.writes = [])
      (.fresh b.customData) (inputs.map .input)) :
    mount b.customData = .ok (Instance.fresh b.customData).state ∧
      ∃ g, grader.run {} inputs = some g ∧
        Simulates b q g
          ((machine b.customData).log advanced (.fresh b.customData) (inputs.map .input)) ∧
        (∀ key, 1 ≤ key → key ≤ 4 → ((machine b.customData).step q (.input (.tap key))).isSome) ∧
        (q.state.answered = true → ((machine b.customData).step q (.input .press)).isSome) := by
  refine ⟨b.mount_eq, ?_⟩
  obtain ⟨g, hg, hsim⟩ := Machine.Meets.simulation (f := Event.input) (A := grader)
    (R := fun q g order => Simulates b q g order) (Simulates.fresh b)
    (fun _ _ _ _ _ h hwrites hstep => h.step hwrites hstep) hfirst hrun
  exact ⟨g, hg, hsim, fun _ hpos hle => hsim.tap_isSome hpos hle, hsim.press_isSome⟩

def fullMarks : List Input :=
  [.tap 1, .tap 4, .press, .tap 3, .press, .tap 2, .press, .tap 1, .press]

theorem fullMarks_simulated :
    mount customData = .ok (Instance.fresh customData).state ∧
      ∃ g, grader.run {} fullMarks = some g ∧
        Simulates bank
          { state := ⟨4, 1, true, 4, 4, true⟩, writes := [.calling (numeral 4)], mounted := true } g
          ((machine customData).log advanced (.fresh customData) (fullMarks.map .input)) ∧
        (∀ key, 1 ≤ key → key ≤ 4 → ((machine customData).step
          { state := ⟨4, 1, true, 4, 4, true⟩, writes := [.calling (numeral 4)], mounted := true }
          (.input (.tap key))).isSome) ∧
        (true = true → ((machine customData).step
          { state := ⟨4, 1, true, 4, 4, true⟩, writes := [.calling (numeral 4)], mounted := true }
          (.input .press)).isSome) :=
  quiz_simulated_by_grader bank fullMarks _ (by decide) (Machine.meets_of_checks (by decide))

end QuizApp.Quiz
