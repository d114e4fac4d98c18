import QuizApp.Quiz.Attainable
import QuizApp.Quiz.Tally

namespace QuizApp.Quiz

open Js

/-- The scores that the submission after the first and `k` more can have. -/
structure CustomData.Scores (customData : CustomData) (N k n : Nat) : Prop where
  least : customData.leastScore N + k * (optionKeys.all (customData.identical N)).toNat ≤ n
  greatest : n ≤ customData.greatestScore N + k * (optionKeys.any (customData.identical N)).toNat

def counted (N k : Nat) : List Nat := List.range' 1 N ++ List.replicate k N

theorem map_min_range' (N k : Nat) : (List.range' 1 (N + k)).map (min · N) = counted N k := by
  rw [counted, ← List.range'_append_1, List.map_append]
  congr 1
  · rw [List.map_congr_left (g := fun q => q), List.map_id']
    intro q hq
    rw [List.mem_range'_1] at hq
    omega
  · rw [List.map_congr_left (g := fun _ => N), List.map_const', List.length_range']
    intro q hq
    rw [List.mem_range'_1] at hq
    omega

theorem CustomData.marks_eq_hits (customData : CustomData) {N k : Nat} {picks : List Nat}
    (h : picks.length = N + k) :
    customData.marks N picks = Choice.hits customData.identical (counted N k) picks := by
  rw [CustomData.marks, List.zipIdx_eq_zip_range', h, ← map_min_range', Choice.hits,
    List.zip_map_right, List.countP_map]
  rfl

theorem sure_counted (customData : CustomData) (N k : Nat) :
    Choice.sure customData.identical optionKeys (counted N k) =
      customData.leastScore N + k * (optionKeys.all (customData.identical N)).toNat := by
  rw [Choice.sure, counted, List.countP_append, List.countP_replicate, CustomData.leastScore]
  cases optionKeys.all (customData.identical N) <;> simp

theorem possible_counted (customData : CustomData) (N k : Nat) :
    Choice.possible customData.identical optionKeys (counted N k) =
      customData.greatestScore N + k * (optionKeys.any (customData.identical N)).toNat := by
  rw [Choice.possible, counted, List.countP_append, List.countP_replicate, CustomData.greatestScore]
  cases optionKeys.any (customData.identical N) <;> simp

theorem CustomData.scores_iff (customData : CustomData) (N k n : Nat) :
    customData.Scores N k n ↔ ∃ picks : List Nat, picks.length = N + k ∧
      (∀ key ∈ picks, key ∈ optionKeys) ∧ customData.marks N picks = n := by
  constructor
  · rintro ⟨hlow, hhigh⟩
    rw [← sure_counted] at hlow
    rw [← possible_counted] at hhigh
    obtain ⟨picks, hpicks, hhits⟩ := Choice.exists_picks (by decide) (counted N k) hlow hhigh
    have hlength : picks.length = N + k := by simpa [counted] using hpicks.length_eq
    exact ⟨picks, hlength, hpicks.mem, (customData.marks_eq_hits hlength).trans hhits⟩
  · rintro ⟨picks, hlength, hmem, rfl⟩
    have hpicks : Choice.Picks optionKeys (counted N k) picks := ⟨by simpa [counted] using hlength, hmem⟩
    rw [customData.marks_eq_hits hlength]
    refine ⟨?_, ?_⟩
    · rw [← sure_counted]
      exact hpicks.hits_bounds.1
    · rw [← possible_counted]
      exact hpicks.hits_bounds.2

def IsMark {N : Nat} (b : Bank N) (content : JsString) : Prop :=
  ∃ k n, b.customData.Scores N k n ∧ content = numeral n

theorem isMark_of_picks {N : Nat} (b : Bank N) {picks : List Nat} (hlength : N ≤ picks.length)
    (hmem : ∀ key ∈ picks, 1 ≤ key ∧ key ≤ 4) : IsMark b (numeral (b.customData.marks N picks)) := by
  refine ⟨picks.length - N, _, (b.customData.scores_iff N _ _).mpr ⟨picks, by omega, ?_, rfl⟩, rfl⟩
  intro key hkey
  exact mem_optionKeys.mpr (hmem key hkey)

structure Marked {N : Nat} (b : Bank N) (q : Instance) : Prop where
  tallied : ∃ t calls, Tallied b q t calls
  calling : ∀ content, .calling content ∈ q.writes → IsMark b content

namespace Marked

variable {N : Nat} {b : Bank N} {q r : Instance}

theorem fresh (b : Bank N) : Marked b (.fresh b.customData) where
  tallied := ⟨{}, [], .fresh b⟩
  calling _ hc := by cases hc

theorem reacts (h : Marked b q) {e : Event} {fx : List Effect}
    (hr : Reacts b.customData q e r fx) : Marked b r := by
  obtain ⟨t, calls, ht⟩ := h.tallied
  obtain ⟨t', -, ht'⟩ := ht.step hr
  refine ⟨⟨t', _, ht'⟩, ?_⟩
  intro content hc
  cases hr with
  | submit _ _ hanswered hlast =>
    rcases List.mem_append.mp hc with hc | hc
    · exact h.calling content hc
    · cases List.mem_singleton.mp hc
      rw [ht.answered, Option.isSome_iff_exists] at hanswered
      obtain ⟨key, hkey⟩ := hanswered
      have hsubmit := ht.submit hkey hlast
      rw [hsubmit.correctCount]
      refine isMark_of_picks b ?_ fun k hk => hsubmit.slots k (List.mem_append_left _ hk)
      rw [List.length_append, List.length_singleton]
      exact ht.isLast_iff.mp hlast
  | settle =>
    rcases List.mem_or_eq_of_mem_set hc with hc | hc
    · exact h.calling content hc
    · cases hc
  | resume => exact h.calling content (List.mem_of_mem_eraseIdx hc)
  | _ => exact h.calling content hc

end Marked

theorem exists_answer {N : Nat} {b : Bank N} {q : Instance} {t : Tally} {calls : List JsString}
    (ht : Tallied b q t calls) (hm : q.mounted = true) {key : Nat} (hkey : key ∈ optionKeys) :
    ∃ r t' calls', (machine b.customData).run q ((answer key).map .input) = some r ∧
      r.mounted = true ∧ t'.picks = t.picks ++ [key] ∧ Tallied b r t' calls' ∧
      r.writes = q.writes ++ if N ≤ t.picks.length + 1 then
        [.calling (numeral (b.customData.marks N (t.picks ++ [key])))] else [] := by
  obtain ⟨hpos, hle⟩ := mem_optionKeys.mp hkey
  have hN := b.pos
  have hcurrent := ht.currentQuestion
  have hslots := b.options_isSome (i := q.state.currentQuestion) (by omega) (by omega)
  let tapped : Instance := { q with state := (q.state.select key).rendered }
  have htap : (machine b.customData).step q (.input (.tap key)) = some tapped :=
    (step_iff b.customData q _ _).mpr ⟨_, .tap hslots hm hpos hle⟩
  have htapped := ht.tap hpos hle
  have hgo : ∀ r, (machine b.customData).step tapped (.input .press) = some r →
      (machine b.customData).run q ((answer key).map .input) = some r := by
    intro r hpress
    simp [answer, Machine.run, htap, hpress]
  by_cases hlast : q.state.currentQuestion = q.state.questionCount
  · have hpress := (step_iff b.customData tapped _ _).mpr ⟨_, .submit hslots hm rfl hlast⟩
    have hsubmit := htapped.submit rfl hlast
    refine ⟨_, _, _, hgo _ hpress, hm, rfl, hsubmit, ?_⟩
    rw [if_pos (ht.isLast_iff.mp hlast), ← hsubmit.correctCount]
  · have hcount := ht.questionCount
    have hnot : ¬ N ≤ t.picks.length + 1 := fun hle => hlast (ht.isLast_iff.mpr hle)
    have hnext := b.options_isSome (i := q.state.currentQuestion + 1) (by omega) (by omega)
    have hpress := (step_iff b.customData tapped _ _).mpr ⟨_, .next hslots hm rfl hlast hnext⟩
    refine ⟨_, _, _, hgo _ hpress, hm, rfl, htapped.next rfl hlast, ?_⟩
    rw [if_neg hnot, List.append_nil]

theorem exists_picked {N : Nat} (b : Bank N) (ks : List Nat) (hks : ∀ k ∈ ks, k ∈ optionKeys) :
    ∃ q t calls,
      (machine b.customData).run (.fresh b.customData) ((ks.flatMap answer).map .input) = some q ∧
        q.mounted = true ∧ t.picks = ks ∧ Tallied b q t calls ∧
        q.writes = (b.customData.submissions N ks).map .calling := by
  induction ks using List.reverseRecOn with
  | nil =>
    refine ⟨_, _, _, rfl, rfl, rfl, .fresh b, ?_⟩
    rw [CustomData.submissions_of_lt b.pos]
    rfl
  | append_singleton ks key ih =>
    obtain ⟨q, t, calls, hrun, hm, rfl, ht, hwrites⟩ :=
      ih fun k hk => hks k (List.mem_append_left _ hk)
    obtain ⟨r, t', calls', hanswer, hrm, hpicks, ht', hrwrites⟩ :=
      exists_answer ht hm (hks key (by simp))
    refine ⟨r, t', calls', ?_, hrm, hpicks, ht', ?_⟩
    · rw [List.flatMap_append, List.map_append, Machine.run_append, hrun]
      simpa using hanswer
    · rw [hrwrites, hwrites]
      by_cases hlast : N ≤ t.picks.length + 1
      · rw [if_pos hlast, CustomData.submissions_snoc hlast, List.map_append]
        rfl
      · have hlength : (t.picks ++ [key]).length < N := by
          rw [List.length_append, List.length_singleton]
          omega
        rw [if_neg hlast, CustomData.submissions_of_lt hlength,
          CustomData.submissions_of_lt (by omega), List.append_nil]

theorem exists_submitted {N : Nat} {b : Bank N} {q : Instance} {t : Tally} {calls : List JsString}
    (ht : Tallied b q t calls) (hm : q.mounted = true) :
    ∃ (is : List Input) (r : Instance),
      (machine b.customData).run q (is.map .input) = some r ∧ r.writes ≠ [] := by
  have hone : 1 ∈ optionKeys := by decide
  induction hn : N - t.picks.length generalizing q t calls with
  | zero =>
    obtain ⟨r, -, -, hrun, -, -, -, hwrites⟩ := exists_answer ht hm hone
    rw [if_pos (by omega)] at hwrites
    exact ⟨_, r, hrun, by simp [hwrites]⟩
  | succ n ih =>
    obtain ⟨r, t', calls', hrun, hrm, hpicks, ht', -⟩ := exists_answer ht hm hone
    have hn' : N - t'.picks.length = n := by
      rw [hpicks, List.length_append, List.length_singleton]
      omega
    obtain ⟨is, r', hrun', hwrites⟩ := ih ht' hrm hn'
    refine ⟨answer 1 ++ is, r', ?_, hwrites⟩
    rw [List.map_append, Machine.run_append, hrun, Option.bind_some, hrun']

theorem tally_answers (N : Nat) (ks : List Nat) :
    ∃ t, (tally N).run {} (ks.flatMap answer) = some t ∧ t.picks = ks := by
  induction ks using List.reverseRecOn with
  | nil => exact ⟨{}, rfl, rfl⟩
  | append_singleton ks key ih =>
    obtain ⟨t, ht, rfl⟩ := ih
    refine ⟨{ picks := t.picks ++ [key],
              selection := if t.picks.length + 1 < N then none else some key }, ?_, rfl⟩
    rw [List.flatMap_append, Machine.run_append, ht]
    rfl

theorem flatMap_inputs (is : List Input) : (is.map Event.input).flatMap Event.inputs = is := by
  rw [List.flatMap_map]
  exact List.flatMap_singleton' is

theorem getElem?_submissions {customData : CustomData} {N k : Nat} {picks : List Nat}
    {content : JsString} :
    (customData.submissions N picks)[k]? = some content ↔
      N + k ≤ picks.length ∧ content = numeral (customData.marks N (picks.take (N + k))) := by
  rw [CustomData.submissions, List.getElem?_map, Option.map_eq_some_iff]
  constructor
  · rintro ⟨j, hj, rfl⟩
    obtain ⟨hlt, rfl⟩ := List.getElem?_eq_some_iff.mp hj
    rw [List.length_range'] at hlt
    simp only [List.getElem_range', Nat.one_mul, and_true]
    omega
  · rintro ⟨hle, rfl⟩
    refine ⟨N + k, ?_, rfl⟩
    rw [List.getElem?_eq_some_iff]
    refine ⟨by rw [List.length_range']; omega, by simp⟩

/-- Over all runs of one instance, the scores of its first submission and of each further
one are exactly an interval, which grows by the slots of the last question. -/
theorem submission_scores {N : Nat} (b : Bank N) (k : Nat) (content : JsString) :
    (∃ es q, (machine b.customData).run (.fresh b.customData) es = some q ∧
      ((machine b.customData).log (calls b.customData) (.fresh b.customData) es)[k]? =
        some content) ↔
      ∃ n, b.customData.Scores N k n ∧ content = numeral n := by
  constructor
  · rintro ⟨es, q, hrun, hk⟩
    obtain ⟨t, -, ht⟩ := exists_tallied b hrun
    rw [ht.calls, getElem?_submissions] at hk
    obtain ⟨hle, rfl⟩ := hk
    refine ⟨_, (b.customData.scores_iff N k _).mpr ⟨t.picks.take (N + k), ?_, ?_, rfl⟩, rfl⟩
    · rw [List.length_take, Nat.min_eq_left hle]
    · intro key hkey
      exact mem_optionKeys.mpr (ht.slots key (List.mem_append_left _ (List.mem_of_mem_take hkey)))
  · rintro ⟨n, hn, rfl⟩
    obtain ⟨picks, hlength, hmem, rfl⟩ := (b.customData.scores_iff N k n).mp hn
    obtain ⟨q, -, -, hrun, -⟩ := exists_picked b picks hmem
    refine ⟨_, q, hrun, ?_⟩
    obtain ⟨t, ht, htallied⟩ := exists_tallied b hrun
    obtain ⟨t', ht', hpicks⟩ := tally_answers N picks
    rw [flatMap_inputs, ht'] at ht
    cases ht
    rw [htallied.calls, hpicks, getElem?_submissions, ← hlength, List.take_length]
    exact ⟨Nat.le_refl _, rfl⟩

end QuizApp.Quiz
