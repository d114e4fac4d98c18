import QuizApp.Lists.Choice
import QuizApp.Quiz.Grader

namespace QuizApp.Quiz

open Js

def Attainable (customData : CustomData) (content : JsString) : Prop :=
  ∃ (inputs : List Input) (q r : Instance),
    (machine customData).run (.fresh customData) (inputs.map .input) = some q ∧
      q.writes = [] ∧ react customData q (.input .press) = some (r, [.callWriteFile content])

def optionKeys : List Nat := List.range' 1 4

/-- The questions all four of whose slots carry the answer. -/
def CustomData.leastScore (customData : CustomData) (N : Nat) : Nat :=
  (List.range' 1 N).countP fun q => optionKeys.all (customData.identical q)

/-- The questions whose answer occurs among the four slots. -/
def CustomData.greatestScore (customData : CustomData) (N : Nat) : Nat :=
  (List.range' 1 N).countP fun q => optionKeys.any (customData.identical q)

theorem mem_optionKeys {key : Nat} : key ∈ optionKeys ↔ 1 ≤ key ∧ key ≤ 4 := by
  rw [optionKeys, List.mem_range'_1]
  omega

theorem Grader.score_eq_hits (customData : CustomData) (g : Grader) : g.score customData =
    Choice.hits customData.identical (List.range' 1 g.graded.length) g.graded := by
  rw [Grader.score, List.zipIdx_eq_zip_range', Choice.hits]

theorem writes_of_input {customData : CustomData} {q r : Instance} {i : Input}
    (hstep : (machine customData).step q (.input i) = some r) : q.writes <+: r.writes := by
  obtain ⟨fx, hr⟩ := (step_iff customData q _ r).mp hstep
  cases hr with
  | tap => exact List.prefix_refl _
  | next => exact List.prefix_refl _
  | submit => exact List.prefix_append _ _

theorem meets_noWrites {customData : CustomData} {inputs : List Input} {q : Instance}
    (hrun : (machine customData).run (.fresh customData) (inputs.map .input) = some q)
    (hq : q.writes = []) :
    (machine customData).Meets advanced (fun r _ _ => r.writes = []) (.fresh customData)
      (inputs.map .input) := by
  induction inputs using List.reverseRecOn generalizing q with
  | nil =>
    intro pre e hpre
    simp at hpre
  | append_singleton inputs i ih =>
    rw [List.map_append, List.map_singleton] at hrun ⊢
    obtain ⟨r, hr, hstep⟩ := (Machine.run_snoc _ _ _ _ _).mp hrun
    have hwrites : r.writes = [] := by
      have hprefix := writes_of_input hstep
      rw [hq] at hprefix
      exact List.prefix_nil.mp hprefix
    apply (ih hr hwrites).snoc
    intro t u ht _
    cases hr.symm.trans ht
    exact hwrites

def Grader.InSlots (g : Grader) : Prop := ∀ key ∈ g.graded ++ g.last.toList, key ∈ optionKeys

theorem Grader.InSlots.step {customData : CustomData} {q r : Instance} {i : Input} {g g' : Grader}
    (h : g.InSlots) (hstep : (machine customData).step q (.input i) = some r)
    (hg : grader.step g i = some g') : g'.InSlots := by
  cases i with
  | tap key =>
    cases hg
    obtain ⟨fx, hr⟩ := (step_iff customData q _ r).mp hstep
    cases hr with
    | tap _ _ hpos hle =>
      intro k hk
      rcases List.mem_append.mp hk with hk | hk
      · exact h k (List.mem_append_left _ hk)
      · cases List.mem_singleton.mp hk
        exact mem_optionKeys.mpr ⟨hpos, hle⟩
  | press =>
    obtain ⟨key, hlast, rfl⟩ := Option.map_eq_some_iff.mp hg
    intro k hk
    apply h k
    simpa [hlast] using hk

theorem exists_simulates {N : Nat} (b : Bank N) {inputs : List Input} {q : Instance}
    (hrun : (machine b.customData).run (.fresh b.customData) (inputs.map .input) = some q)
    (hq : q.writes = []) : ∃ g order, Simulates b q g order ∧ g.InSlots := by
  obtain ⟨g, -, hsim, hslots⟩ := Machine.Meets.simulation (f := Event.input) (A := grader)
    (R := fun q g order => Simulates b q g order ∧ g.InSlots)
    ⟨Simulates.fresh b, by simp [Grader.InSlots]⟩
    (fun t g l i u h hwrites hstep => by
      obtain ⟨g', hg, hsim⟩ := h.1.step hwrites hstep
      exact ⟨g', hg, hsim, h.2.step hstep hg⟩)
    (meets_noWrites hrun hq) hrun
  exact ⟨g, _, hsim, hslots⟩

theorem Attainable.exists_picks {N : Nat} (b : Bank N) {content : JsString}
    (h : Attainable b.customData content) : ∃ ks, Choice.Picks optionKeys (List.range' 1 N) ks ∧
      content = numeral (Choice.hits b.customData.identical (List.range' 1 N) ks) := by
  obtain ⟨inputs, q, r, hrun, hq, hreact⟩ := h
  obtain ⟨g, order, hsim, hslots⟩ := exists_simulates b hrun hq
  have hr := (react_iff b.customData q _ r _).mp hreact
  generalize hfx : [Effect.callWriteFile content] = fx at hr
  cases hr with
  | next => cases hfx
  | submit _ _ hanswered hlast =>
    cases hfx
    obtain ⟨key, hkey, hselected⟩ := hsim.last_eq hq hanswered
    have hlength : (g.graded ++ [key]).length = N := by
      have := (hsim.ongoing hq).1
      have := hsim.questionCount_eq
      simp only [List.length_append, List.length_singleton]
      omega
    refine ⟨g.graded ++ [key], ⟨by simpa using hlength, ?_⟩, ?_⟩
    · simpa [Grader.InSlots, hkey] using hslots
    · rw [hsim.score_eq hq hselected, Grader.score_eq_hits, hlength]

def answer (key : Nat) : List Input := [.tap key, .press]

theorem exists_answered {N : Nat} (b : Bank N) (ks : List Nat) (hks : ∀ k ∈ ks, k ∈ optionKeys)
    (hlength : ks.length < N) : ∃ q order,
      (machine b.customData).run (.fresh b.customData) ((ks.flatMap answer).map .input) = some q ∧
        q.writes = [] ∧ Simulates b q { graded := ks } order := by
  induction ks using List.reverseRecOn with
  | nil => exact ⟨_, _, rfl, rfl, .fresh b⟩
  | append_singleton ks key ih =>
    rw [List.length_append, List.length_singleton] at hlength
    obtain ⟨q, order, hrun, hq, hsim⟩ := ih (fun k hk => hks k (List.mem_append_left _ hk)) (by omega)
    have hkey : key ∈ optionKeys := hks key (by simp)
    obtain ⟨hpos, hle⟩ := mem_optionKeys.mp hkey
    have htapped := hsim.tap hq hpos hle
    have hselected : (q.state.select key).rendered.selectedOption = key := rfl
    have hne : q.state.currentQuestion ≠ q.state.questionCount := by
      have hquestion : ks.length + 1 = q.state.currentQuestion := (hsim.ongoing hq).1
      rw [hsim.questionCount_eq]
      omega
    have hanswered := htapped.next hq hselected hne
    refine ⟨_, _, ?_, ?_, hanswered⟩
    · rw [List.flatMap_append, List.map_append, Machine.run_append, hrun]
      simp only [Option.bind_some, List.flatMap_singleton, answer, List.map_cons, List.map_nil,
        Machine.run, hsim.tap_step hpos hle, htapped.next_step rfl hne]
    · exact hq

theorem attainable_of_picks {N : Nat} (b : Bank N) {ks : List Nat}
    (h : Choice.Picks optionKeys (List.range' 1 N) ks) : Attainable b.customData
      (numeral (Choice.hits b.customData.identical (List.range' 1 N) ks)) := by
  have hlength : ks.length = N := by simpa using h.length_eq
  rcases List.eq_nil_or_concat' ks with rfl | ⟨ks, key, rfl⟩
  · have := b.pos
    rw [List.length_nil] at hlength
    omega
  · have hshort : ks.length < N := by
      rw [List.length_append, List.length_singleton] at hlength
      omega
    obtain ⟨q, order, hrun, hq, hsim⟩ := exists_answered b ks
      (fun k hk => h.mem k (List.mem_append_left _ hk)) hshort
    have hkey : key ∈ optionKeys := h.mem key (by simp)
    obtain ⟨hpos, hle⟩ := mem_optionKeys.mp hkey
    have htapped := hsim.tap hq hpos hle
    have hselected : (q.state.select key).rendered.selectedOption = key := rfl
    have hlast : q.state.currentQuestion = q.state.questionCount := by
      have hquestion : ks.length + 1 = q.state.currentQuestion := (hsim.ongoing hq).1
      rw [hsim.questionCount_eq, ← hquestion, ← hlength, List.length_append, List.length_singleton]
    have hscore := htapped.score_eq hq hselected
    rw [Grader.score_eq_hits, hlength] at hscore
    have htap : (machine b.customData).run (.fresh b.customData)
        ((ks.flatMap answer ++ [Input.tap key]).map .input) =
          some { q with state := (q.state.select key).rendered } := by
      rw [List.map_append, Machine.run_append, hrun]
      simp only [Option.bind_some, List.map_cons, List.map_nil, Machine.run, hsim.tap_step hpos hle]
    have hsubmit := (react_iff b.customData _ _ _ _).mpr
      (.submit htapped.slots_defined htapped.mounted rfl hlast)
    rw [hscore] at hsubmit
    exact ⟨_, _, _, htap, hq, hsubmit⟩

theorem attainable_iff {N : Nat} (b : Bank N) (content : JsString) :
    Attainable b.customData content ↔ ∃ n, b.customData.leastScore N ≤ n ∧
      n ≤ b.customData.greatestScore N ∧ content = numeral n := by
  constructor
  · intro h
    obtain ⟨ks, hpicks, rfl⟩ := h.exists_picks b
    obtain ⟨hlow, hhigh⟩ := hpicks.hits_bounds
    exact ⟨_, hlow, hhigh, rfl⟩
  · rintro ⟨n, hlow, hhigh, rfl⟩
    obtain ⟨ks, hpicks, rfl⟩ := Choice.exists_picks (by decide) (List.range' 1 N) hlow hhigh
    exact attainable_of_picks b hpicks

theorem greatestScore_le (customData : CustomData) (N : Nat) : customData.greatestScore N ≤ N := by
  have hle := List.countP_le_length (p := fun q => optionKeys.any (customData.identical q))
    (l := List.range' 1 N)
  rwa [List.length_range'] at hle

theorem leastScore_le (customData : CustomData) (N : Nat) :
    customData.leastScore N ≤ customData.greatestScore N :=
  Choice.sure_le_possible (by decide) _

theorem greatestScore_eq_iff (customData : CustomData) (N : Nat) :
    customData.greatestScore N = N ↔ ∀ q, 1 ≤ q → q ≤ N →
      ∃ key, 1 ≤ key ∧ key ≤ 4 ∧ customData.identical q key = true := by
  have hlength : customData.greatestScore N = N ↔
      ∀ q ∈ List.range' 1 N, optionKeys.any (customData.identical q) = true := by
    rw [← List.countP_eq_length, List.length_range', CustomData.greatestScore]
  simp only [hlength, List.any_eq_true, mem_optionKeys, and_assoc, List.mem_range'_1]
  constructor
  · intro h q hpos hle
    exact h q ⟨hpos, by omega⟩
  · rintro h q ⟨hpos, hlt⟩
    exact h q hpos (by omega)

theorem attainable_full_iff {N : Nat} (b : Bank N) :
    Attainable b.customData (numeral N) ↔ b.customData.greatestScore N = N := by
  have hle := greatestScore_le b.customData N
  rw [attainable_iff]
  constructor
  · rintro ⟨n, -, hhigh, hn⟩
    cases numeral_injective hn
    exact Nat.le_antisymm hle hhigh
  · intro hfull
    exact ⟨N, (leastScore_le _ _).trans hle, Nat.le_of_eq hfull.symm, rfl⟩

structure InBank (N : Nat) (s : State) : Prop where
  one_le : 1 ≤ s.currentQuestion
  le_count : s.currentQuestion ≤ N
  questionCount_eq : s.questionCount = N

theorem InBank.reacts {customData : CustomData} {N : Nat} {q r : Instance} {e : Event}
    {fx : List Effect} (h : InBank N q.state) (hr : Reacts customData q e r fx) :
    InBank N r.state := by
  have hle := h.le_count
  have hcount := h.questionCount_eq
  cases hr with
  | next _ _ _ hne _ =>
    refine ⟨?_, ?_, ?_⟩ <;> simp only [State.rendered, State.advance, State.score_currentQuestion,
      State.score_questionCount]
    · omega
    · omega
    · exact hcount
  | submit => exact ⟨by simpa using h.one_le, by simpa using hle, by simpa using hcount⟩
  | _ => exact ⟨h.one_le, hle, hcount⟩

theorem InBank.of_run {N : Nat} (b : Bank N) {es : List Event} {q : Instance}
    (hrun : (machine b.customData).run (.fresh b.customData) es = some q) : InBank N q.state :=
  @Machine.run_invariant _ _ Unit _ Machine.unobserved (fun q _ => InBank N q.state) _
    ⟨Nat.le_refl 1, b.pos, b.totalQuestions_eq⟩
    (fun _ _ _ _ h hstep => h.reacts ((step_iff _ _ _ _).mp hstep).choose_spec) _ _ hrun

theorem correctCount_of_missing {N : Nat} (b : Bank N) {q r : Instance} {fx : List Effect}
    (hbank : InBank N q.state) (hr : Reacts b.customData q (.input .press) r fx)
    (hmissing : b.customData.optionText q.state.currentQuestion q.state.selectedOption = none) :
    r.state.correctCount = q.state.correctCount := by
  obtain ⟨text, htext⟩ := Option.isSome_iff_exists.mp (b.answers_isSome hbank.one_le hbank.le_count)
  have hcorrect : b.customData.correct q.state = false := by
    simp [CustomData.correct, hmissing, htext]
  cases hr with
  | next => simp [State.rendered, State.advance, hcorrect]
  | submit => simp [hcorrect]

/-- The scores of a first submission are the interval from the questions that cannot be
answered wrongly to those that can be answered rightly, so that full marks can be had when
each answer is among its options; and a missing slot never scores. -/
theorem attainable_scores {N : Nat} (b : Bank N) :
    (∀ content, Attainable b.customData content ↔ ∃ n, b.customData.leastScore N ≤ n ∧
      n ≤ b.customData.greatestScore N ∧ content = numeral n) ∧
    (Attainable b.customData (numeral N) ↔ ∀ q, 1 ≤ q → q ≤ N →
      ∃ key, 1 ≤ key ∧ key ≤ 4 ∧ b.customData.identical q key = true) ∧
    ∀ es q r, (machine b.customData).run (.fresh b.customData) es = some q →
      (machine b.customData).step q (.input .press) = some r →
      b.customData.optionText q.state.currentQuestion q.state.selectedOption = none →
      r.state.correctCount = q.state.correctCount := by
  refine ⟨attainable_iff b, ?_, ?_⟩
  · rw [attainable_full_iff, greatestScore_eq_iff]
  · intro es q r hrun hstep hmissing
    obtain ⟨fx, hr⟩ := (step_iff b.customData q _ r).mp hstep
    exact correctCount_of_missing b (.of_run b hrun) hr hmissing

end QuizApp.Quiz
