import QuizApp.Quiz.Grader

namespace QuizApp.Quiz

open Js

/-- One step as seen from outside: the question on display, what the step added to
`correctCount`, and its effects. -/
structure Entry where
  question : Nat
  gain : Nat
  effects : List Effect
  deriving DecidableEq

def observe (customData : CustomData) (q : Instance) (e : Event) : List Entry :=
  (react customData q e).elim [] fun r =>
    [⟨q.state.currentQuestion, r.1.state.correctCount - q.state.correctCount, r.2⟩]

theorem observe_eq {customData : CustomData} {q r : Instance} {e : Event} {fx : List Effect}
    (h : Reacts customData q e r fx) :
    observe customData q e =
      [⟨q.state.currentQuestion, r.state.correctCount - q.state.correctCount, fx⟩] := by
  simp [observe, (react_iff customData q e r fx).mpr h]

def gainOf (k : Nat) : List Entry → Nat
  | [] => 0
  | x :: l => (if x.question = k then x.gain else 0) + gainOf k l

def callsOf : List Effect → List JsString
  | [] => []
  | .callWriteFile content :: fx => content :: callsOf fx
  | _ :: fx => callsOf fx

def storesOf : List Effect → List JsString
  | [] => []
  | .storeFile content :: fx => content :: storesOf fx
  | _ :: fx => storesOf fx

def effectsOf (l : List Entry) : List Effect := l.flatMap Entry.effects

@[simp] theorem gainOf_append (k : Nat) (l m : List Entry) :
    gainOf k (l ++ m) = gainOf k l + gainOf k m := by
  induction l with
  | nil => simp [gainOf]
  | cons x l ih => simp [gainOf, ih, Nat.add_assoc]

@[simp] theorem callsOf_append (fx gx : List Effect) :
    callsOf (fx ++ gx) = callsOf fx ++ callsOf gx := by
  induction fx with
  | nil => rfl
  | cons f fx ih => cases f <;> simp [callsOf, ih]

@[simp] theorem storesOf_append (fx gx : List Effect) :
    storesOf (fx ++ gx) = storesOf fx ++ storesOf gx := by
  induction fx with
  | nil => rfl
  | cons f fx ih => cases f <;> simp [storesOf, ih]

@[simp] theorem effectsOf_append (l m : List Entry) :
    effectsOf (l ++ m) = effectsOf l ++ effectsOf m := by
  simp [effectsOf]

def IsScore (N : Nat) (content : JsString) : Prop := ∃ n, n ≤ N ∧ content = numeral n

structure SubmitsOnce (N : Nat) (q : Instance) (l : List Entry) : Prop where
  gain_le : ∀ k, gainOf k l ≤ 1
  correctCount_le : q.state.correctCount ≤ q.state.questionCount
  score_le : ∀ content ∈ callsOf (effectsOf l) ++ storesOf (effectsOf l), IsScore N content
  calls_le : (callsOf (effectsOf l)).length ≤ 1
  replaces_le : (effectsOf l).count (.replace .homeScreen) ≤ 1

/-- No press on the last question once `RNFS.writeFile` has been called. -/
def NoSecondSubmit (q : Instance) (l : List Entry) (e : Event) : Prop :=
  e = .input .press → q.state.currentQuestion = q.state.questionCount → callsOf (effectsOf l) = []

structure Kept (N : Nat) (q : Instance) (l : List Entry) : Prop where
  one_le : 1 ≤ q.state.currentQuestion
  le_count : q.state.currentQuestion ≤ N
  questionCount_eq : q.state.questionCount = N
  gain_le : ∀ k, gainOf k l ≤ 1
  calls_le : (callsOf (effectsOf l)).length ≤ 1
  gain_later : callsOf (effectsOf l) = [] → ∀ k, q.state.currentQuestion ≤ k → gainOf k l = 0
  correctCount_lt : callsOf (effectsOf l) = [] → q.state.correctCount < q.state.currentQuestion
  correctCount_le : q.state.correctCount ≤ N
  at_last : callsOf (effectsOf l) ≠ [] → q.state.currentQuestion = N
  outstanding : q.writes.length + (effectsOf l).count (.replace .homeScreen) =
    (callsOf (effectsOf l)).length
  score_le : ∀ content ∈ callsOf (effectsOf l) ++ storesOf (effectsOf l), IsScore N content
  calling_le : ∀ content, .calling content ∈ q.writes → IsScore N content

namespace Kept

variable {N : Nat} {q r : Instance} {l : List Entry}

theorem fresh (b : Bank N) : Kept N (.fresh b.customData) [] where
  one_le := Nat.le_refl 1
  le_count := b.pos
  questionCount_eq := b.totalQuestions_eq
  gain_le _ := Nat.zero_le 1
  calls_le := Nat.zero_le 1
  gain_later _ _ _ := rfl
  correctCount_lt _ := Nat.zero_lt_one
  correctCount_le := Nat.zero_le N
  at_last h := absurd rfl h
  outstanding := rfl
  score_le _ h := by simp [effectsOf, callsOf, storesOf] at h
  calling_le _ h := by simp [Instance.fresh] at h

theorem submitsOnce (h : Kept N q l) : SubmitsOnce N q l where
  gain_le := h.gain_le
  correctCount_le := h.questionCount_eq ▸ h.correctCount_le
  score_le := h.score_le
  calls_le := h.calls_le
  replaces_le := by
    have := h.outstanding
    have := h.calls_le
    omega

theorem quiet (h : Kept N q l) {fx : List Effect}
    (hquestion : r.state.currentQuestion = q.state.currentQuestion)
    (hcount : r.state.questionCount = q.state.questionCount)
    (hcorrect : r.state.correctCount = q.state.correctCount)
    (hcalls : callsOf fx = []) (hstores : ∀ content ∈ storesOf fx, IsScore N content)
    (hwrites : r.writes.length + fx.count (.replace .homeScreen) = q.writes.length)
    (hcalling : ∀ content, .calling content ∈ r.writes → .calling content ∈ q.writes) :
    Kept N r
      (l ++ [⟨q.state.currentQuestion, r.state.correctCount - q.state.correctCount, fx⟩]) where
  one_le := hquestion ▸ h.one_le
  le_count := hquestion ▸ h.le_count
  questionCount_eq := hcount ▸ h.questionCount_eq
  gain_le k := by simpa [gainOf, hcorrect] using h.gain_le k
  calls_le := by simpa [effectsOf, hcalls] using h.calls_le
  gain_later hn k hk := by
    rw [hquestion] at hk
    have := h.gain_later (by simpa [effectsOf, hcalls] using hn) k hk
    simpa [gainOf, hcorrect] using this
  correctCount_lt hn := by
    rw [hcorrect, hquestion]
    exact h.correctCount_lt (by simpa [effectsOf, hcalls] using hn)
  correctCount_le := hcorrect ▸ h.correctCount_le
  at_last hn := by
    rw [hquestion]
    exact h.at_last (by simpa [effectsOf, hcalls] using hn)
  outstanding := by
    have := h.outstanding
    simp only [effectsOf, List.flatMap_append, List.flatMap_singleton, List.count_append,
      callsOf_append, hcalls, List.append_nil] at this ⊢
    omega
  score_le content hc := by
    have hc : content ∈ callsOf (effectsOf l) ++ storesOf (effectsOf l) ∨
        content ∈ storesOf fx := by
      simpa [effectsOf, hcalls, or_assoc] using hc
    exact hc.elim (h.score_le content) (hstores content)
  calling_le content hc := h.calling_le content (hcalling content hc)

theorem next (h : Kept N q l) (c : Bool)
    (hlast : q.state.currentQuestion ≠ q.state.questionCount)
    (hr : r.state = (q.state.score c).advance.rendered) (hwrites : r.writes = q.writes) :
    Kept N r
      (l ++ [⟨q.state.currentQuestion, r.state.correctCount - q.state.correctCount, []⟩]) := by
  have hnone : callsOf (effectsOf l) = [] := by
    by_contra hn
    exact hlast ((h.at_last hn).trans h.questionCount_eq.symm)
  have hc := Bool.toNat_le c
  have hle := h.le_count
  have hcount := h.questionCount_eq
  have hlt := h.correctCount_lt hnone
  have hgain : r.state.correctCount - q.state.correctCount = c.toNat := by
    simp [hr, State.rendered, State.advance]
  have hquestion : r.state.currentQuestion = q.state.currentQuestion + 1 := by
    simp [hr, State.rendered, State.advance]
  have hcorrect : r.state.correctCount = q.state.correctCount + c.toNat := by
    simp [hr, State.rendered, State.advance]
  rw [hgain]
  exact {
    one_le := by omega
    le_count := by omega
    questionCount_eq := by simpa [hr, State.rendered, State.advance] using hcount
    gain_le := fun k => by
      have := h.gain_le k
      have := h.gain_later hnone k
      simp only [gainOf_append, gainOf]
      split <;> omega
    calls_le := by simpa [effectsOf] using h.calls_le
    gain_later := fun _ k hk => by
      have := h.gain_later hnone k (by omega)
      simp only [gainOf_append, gainOf]
      split <;> omega
    correctCount_lt := fun _ => by omega
    correctCount_le := by omega
    at_last := fun hn => absurd (by simpa [effectsOf] using hnone) hn
    outstanding := by simpa [effectsOf, hwrites] using h.outstanding
    score_le := by simpa [effectsOf] using h.score_le
    calling_le := by simpa [hwrites] using h.calling_le }

theorem submit (h : Kept N q l) (c : Bool)
    (hlast : q.state.currentQuestion = q.state.questionCount)
    (hnone : callsOf (effectsOf l) = []) (hr : r.state = q.state.score c)
    (hwrites : r.writes = q.writes ++ [.calling (numeral (q.state.score c).correctCount)]) :
    Kept N r (l ++ [⟨q.state.currentQuestion, r.state.correctCount - q.state.correctCount,
      [.callWriteFile (numeral (q.state.score c).correctCount)]⟩]) := by
  have hc := Bool.toNat_le c
  have hle := h.le_count
  have hcount := h.questionCount_eq
  have hlt := h.correctCount_lt hnone
  have hgain : r.state.correctCount - q.state.correctCount = c.toNat := by simp [hr]
  have hquestion : r.state.currentQuestion = q.state.currentQuestion := by simp [hr]
  have hcorrect : r.state.correctCount = q.state.correctCount + c.toNat := by simp [hr]
  have hscore : IsScore N (numeral (q.state.score c).correctCount) :=
    ⟨_, by rw [State.score_correctCount]; omega, rfl⟩
  rw [hgain]
  exact {
    one_le := hquestion ▸ h.one_le
    le_count := hquestion ▸ hle
    questionCount_eq := by simpa [hr] using hcount
    gain_le := fun k => by
      have := h.gain_le k
      have := h.gain_later hnone k
      simp only [gainOf_append, gainOf]
      split <;> omega
    calls_le := by simp [effectsOf, callsOf] at hnone ⊢; simp [hnone]
    gain_later := fun hn => by simp [effectsOf, callsOf] at hn
    correctCount_lt := fun hn => by simp [effectsOf, callsOf] at hn
    correctCount_le := by omega
    at_last := fun _ => by omega
    outstanding := by
      have := h.outstanding
      simp only [effectsOf, List.flatMap_append, List.flatMap_singleton, List.count_append,
        callsOf_append, hwrites, List.length_append] at this ⊢
      simp [callsOf]
      omega
    score_le := fun content hc => by
      simp only [effectsOf_append, callsOf_append, storesOf_append, List.mem_append] at hc
      rcases hc with (hc | hc) | hc | hc
      · exact h.score_le content (by simp [hc])
      · simp only [effectsOf, List.flatMap_singleton, callsOf, List.mem_singleton] at hc
        exact hc ▸ hscore
      · exact h.score_le content (by simp [hc])
      · simp [effectsOf, storesOf] at hc
    calling_le := fun content hc => by
      rw [hwrites, List.mem_append, List.mem_singleton] at hc
      rcases hc with hc | hc
      · exact h.calling_le content hc
      · cases hc
        exact hscore }

theorem step (b : Bank N) (h : Kept N q l) {e : Event} (honce : NoSecondSubmit q l e)
    (hstep : (machine b.customData).step q e = some r) :
    Kept N r (l ++ observe b.customData q e) := by
  obtain ⟨fx, hr⟩ := (step_iff b.customData q e r).mp hstep
  rw [observe_eq hr]
  cases hr with
  | tap => exact h.quiet rfl rfl rfl rfl (by simp [storesOf]) rfl (fun _ hc => hc)
  | next _ _ _ hlast => exact h.next _ hlast rfl rfl
  | submit _ _ _ hlast => exact h.submit _ hlast (honce rfl hlast) rfl rfl
  | @settle i ok content hi =>
    have hscore := h.calling_le content (List.mem_of_getElem? hi)
    refine h.quiet rfl rfl rfl ?_ ?_ ?_ ?_
    · cases ok <;> rfl
    · intro c hc
      cases ok with
      | false => simp [storesOf] at hc
      | true =>
        simp only [if_true, storesOf, List.mem_singleton] at hc
        exact hc ▸ hscore
    · cases ok <;> simp
    · intro c hc
      rcases List.mem_or_eq_of_mem_set hc with hc | hc
      · exact hc
      · cases hc
  | @resume i ok hi =>
    have hlt : i < q.writes.length := (List.getElem?_eq_some_iff.mp hi).1
    refine h.quiet rfl rfl rfl ?_ ?_ ?_ ?_
    · cases ok <;> rfl
    · cases ok <;> simp [afterWrite, storesOf]
    · cases ok <;> simp [afterWrite, List.length_eraseIdx, hlt] <;> omega
    · intro c hc
      exact List.mem_of_mem_eraseIdx hc
  | unmount => exact h.quiet rfl rfl rfl rfl (by simp [storesOf]) rfl (fun _ hc => hc)

end Kept

theorem noSecondSubmit_of_submitsOnce {N : Nat} {customData : CustomData} {q r : Instance}
    {l : List Entry} {e : Event} (hstep : (machine customData).step q e = some r)
    (h : SubmitsOnce N r (l ++ observe customData q e)) : NoSecondSubmit q l e := by
  rintro rfl hlast
  obtain ⟨fx, hr⟩ := (step_iff customData q _ r).mp hstep
  have hcalls := h.calls_le
  rw [observe_eq hr] at hcalls
  cases hr with
  | next _ _ _ hne => exact absurd hlast hne
  | submit =>
    have hone : (callsOf (effectsOf l)).length + 1 ≤ 1 := by
      simpa [effectsOf, callsOf] using hcalls
    exact List.eq_nil_of_length_eq_zero (by omega)

/-- An instance submits once exactly in the runs in which nobody presses the button
of the last question again. -/
theorem submitsOnce_iff_noSecondSubmit {N : Nat} (b : Bank N) (es : List Event) :
    (machine b.customData).Always (observe b.customData) (SubmitsOnce N)
        (.fresh b.customData) es ↔
      (machine b.customData).Meets (observe b.customData) NoSecondSubmit
        (.fresh b.customData) es :=
  Machine.always_iff_meets (Kept.fresh b) (fun _ _ _ _ h honce hstep => h.step b honce hstep)
    (fun _ _ h => h.submitsOnce) (fun _ _ _ _ _ hstep h => noSecondSubmit_of_submitsOnce hstep h) es

theorem second_press_submits_twice :
    ¬ (machine customData).Always (observe customData) (SubmitsOnce 4) (.fresh customData)
      ((fullMarks ++ [Input.press]).map .input) := by
  intro h
  have hend : (machine customData).run (.fresh customData) ((fullMarks ++ [Input.press]).map .input) =
      some ⟨⟨4, 1, true, 5, 4, true⟩, [.calling (numeral 4), .calling (numeral 5)], true⟩ := by
    decide
  have hle := (h _ (List.prefix_refl _) _ hend).correctCount_le
  exact absurd hle (by decide)

end QuizApp.Quiz
