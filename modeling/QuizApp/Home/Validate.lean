import QuizApp.Js.Grammar
import QuizApp.Home.Load

namespace QuizApp.Home

open Js

def ValidName (name : JsString) : Prop := ∃ c ∈ name, isWhiteSpace c = false

def ValidAge (age : JsString) : Prop :=
  ∃ negative m, NumericLiteral (trim age) negative m ∧ (m.toNumber negative).IsNonNegative

def Field.Valid : Field → JsString → Prop
  | .firstName | .lastName | .nickName => ValidName
  | .age => ValidAge

/-- `validate` accepts the form when the profile is valid, and otherwise raises the
errors of its invalid fields and keeps its values. -/
def ExactlyValid (s : State) (p : Profile JsString) : Prop :=
  ∃ accepted t, validate { s with values := p.some } = .ok (accepted, t) ∧
    (accepted = true ↔ ∀ f : Field, f.Valid (p.get f)) ∧
    (accepted = false →
      (∀ f : Field, t.errors.get f = true ↔ ¬ f.Valid (p.get f)) ∧ t.values = p.some)

/-- The ages that slip through: white space alone, and the negative and infinite numbers. -/
def Misjudged (age : JsString) : Prop :=
  (age ≠ [] ∧ age.all isWhiteSpace = true) ∨
    ∃ x, StringNumericLiteral age x ∧ ¬ x.IsNonNegative

theorem validName_iff (name : JsString) : ValidName name ↔ trim name ≠ [] := by
  rw [Ne, trim_eq_nil_iff, List.all_eq_true]
  simp [ValidName]

theorem validAge_iff (age : JsString) :
    ValidAge age ↔ trim age ≠ [] ∧ (stringToNumber age).IsNonNegative := by
  constructor
  · rintro ⟨negative, m, hliteral, hvalue⟩
    refine ⟨?_, stringToNumber_of_literal hliteral ▸ hvalue⟩
    intro hnil
    have hsome := (numericLiteral_iff _ _ _).mp hliteral
    rw [hnil] at hsome
    cases hsome
  · rintro ⟨hne, hvalue⟩
    simp only [stringToNumber, List.isEmpty_iff, hne, if_false] at hvalue
    cases hsome : numericLiteral? (trim age) with
    | none => simp [hsome, Number.IsNonNegative] at hvalue
    | some r =>
      obtain ⟨negative, m⟩ := r
      rw [hsome] at hvalue
      exact ⟨negative, m, (numericLiteral_iff _ _ _).mpr hsome, hvalue⟩

theorem nameCheck_eq_true_iff (name : JsString) :
    nameCheck (some name) = .ok true ↔ ¬ ValidName name := by
  simp [nameCheck, validName_iff]

theorem ageCheck_eq_true_iff (age : JsString) :
    ageCheck (some age) = .ok true ↔ age = [] ∨ stringToNumber age = .nan := by
  simp [ageCheck, isNaN_iff]

theorem ageCheck_of_invalid {age : JsString} (h : ageCheck (some age) = .ok true) :
    ¬ ValidAge age := by
  rw [validAge_iff]
  rintro ⟨hne, hvalue⟩
  rcases (ageCheck_eq_true_iff age).mp h with rfl | hnan
  · exact hne rfl
  · rw [hnan] at hvalue
    exact hvalue

theorem misjudged_iff (age : JsString) :
    Misjudged age ↔ ageCheck (some age) ≠ .ok true ∧ ¬ ValidAge age := by
  rw [Ne, ageCheck_eq_true_iff, not_or, validAge_iff]
  constructor
  · rintro (⟨hne, hblank⟩ | ⟨x, hx, hneg⟩)
    · have hnil := (trim_eq_nil_iff age).mpr hblank
      obtain ⟨hvalue, hnan⟩ := (stringNumericLiteral_iff _ _).mp (.blank hblank)
      exact ⟨⟨hne, hvalue ▸ hnan⟩, fun h => h.1 hnil⟩
    · obtain ⟨rfl, hnan⟩ := (stringNumericLiteral_iff age x).mp hx
      refine ⟨⟨?_, hnan⟩, fun h => hneg h.2⟩
      rintro rfl
      exact hneg (by decide)
  · rintro ⟨⟨hne, hnan⟩, hinvalid⟩
    by_cases hnil : trim age = []
    · exact .inl ⟨hne, (trim_eq_nil_iff age).mp hnil⟩
    · exact .inr ⟨_, (stringNumericLiteral_iff _ _).mpr ⟨rfl, hnan⟩, fun h => hinvalid ⟨hnil, h⟩⟩

theorem Field.check_eq_true_iff (f : Field) (v : JsString) (hf : f = .age → ¬ Misjudged v) :
    f.check (some v) = .ok true ↔ ¬ f.Valid v := by
  cases f with
  | firstName => exact nameCheck_eq_true_iff v
  | lastName => exact nameCheck_eq_true_iff v
  | nickName => exact nameCheck_eq_true_iff v
  | age =>
    refine ⟨ageCheck_of_invalid, fun hinvalid => ?_⟩
    by_contra hcheck
    exact hf rfl ((misjudged_iff v).mpr ⟨hcheck, hinvalid⟩)

theorem exists_faults (s : State) (p : Profile JsString) : ∃ faults : Profile Bool,
    (∀ f : Field, faults.get f = true ↔ f.check (some (p.get f)) = .ok true) ∧
      validate { s with values := p.some } = .ok (if faults.hasFault
        then (false, { s with values := p.some, errors := faults })
        else (true, { s with values := p.some })) := by
  have hstrings : State.Strings { s with values := p.some } := by
    intro f
    cases f <;> rfl
  obtain ⟨faults, hf⟩ := exists_checks hstrings
  refine ⟨faults, fun f => ?_, validate_of_checks hf⟩
  have hget : p.some.get f = Option.some (p.get f) := by cases f <;> rfl
  rw [← hget, hf f]
  simp

theorem exactlyValid_of_judged {s : State} {p : Profile JsString} (h : ¬ Misjudged p.age) :
    ExactlyValid s p := by
  obtain ⟨faults, hf, hvalidate⟩ := exists_faults s p
  have hfaults : ∀ f : Field, faults.get f = true ↔ ¬ f.Valid (p.get f) := by
    intro f
    rw [hf f]
    apply f.check_eq_true_iff
    rintro rfl
    exact h
  cases hfault : faults.hasFault with
  | true =>
    rw [hfault, if_pos rfl] at hvalidate
    refine ⟨_, _, hvalidate, ⟨nofun, fun hvalid => ?_⟩, fun _ => ⟨hfaults, rfl⟩⟩
    have hnone : faults.hasFault = false := by
      apply Profile.hasFault_eq_false.mpr
      intro f
      simpa [hvalid f] using hfaults f
    exact absurd hnone (by simp [hfault])
  | false =>
    rw [hfault, if_neg Bool.false_ne_true] at hvalidate
    refine ⟨_, _, hvalidate, ⟨fun _ f => ?_, fun _ => rfl⟩, nofun⟩
    have hnone := Profile.hasFault_eq_false.mp hfault f
    simpa [hnone] using hfaults f

theorem not_exactlyValid_of_misjudged {s : State} {p : Profile JsString}
    (h : Misjudged p.age) : ¬ ExactlyValid s p := by
  rintro ⟨accepted, t, hvalidate, haccepted, hrejected⟩
  obtain ⟨hcheck, hinvalid⟩ := (misjudged_iff p.age).mp h
  obtain ⟨faults, hf, hvalidate'⟩ := exists_faults s p
  rw [hvalidate] at hvalidate'
  cases hfault : faults.hasFault with
  | true =>
    rw [hfault] at hvalidate'
    cases hvalidate'
    exact hcheck ((hf .age).mp (((hrejected rfl).1 .age).mpr hinvalid))
  | false =>
    rw [hfault] at hvalidate'
    cases hvalidate'
    exact hinvalid (haccepted.mp rfl .age)

/-- `validate` judges a profile rightly exactly when its age is none of those that slip
through, whatever the names are. -/
theorem exactlyValid_iff (s : State) (p : Profile JsString) :
    ExactlyValid s p ↔ ¬ Misjudged p.age :=
  ⟨fun h hmis => not_exactlyValid_of_misjudged hmis h, exactlyValid_of_judged⟩

def agedAnn (age : String) : Profile JsString := { ann with age := .lit age }

theorem invalid_ages_accepted :
    (∀ age ∈ [" ", "-5", "Infinity"], validate { values := (agedAnn age).some } =
        .ok (true, { values := (agedAnn age).some })) ∧
      ¬ ExactlyValid {} (agedAnn " ") ∧ ¬ ExactlyValid {} (agedAnn "-5") ∧
      ¬ ExactlyValid {} (agedAnn "Infinity") := by
  refine ⟨by decide, ?_, ?_, ?_⟩
  · exact not_exactlyValid_of_misjudged (.inl ⟨by decide, by decide⟩)
  · apply not_exactlyValid_of_misjudged
    exact .inr ⟨_, (stringNumericLiteral_iff _ _).mpr ⟨rfl, by decide +kernel⟩, by decide +kernel⟩
  · apply not_exactlyValid_of_misjudged
    exact .inr ⟨_, (stringNumericLiteral_iff _ _).mpr ⟨rfl, by decide +kernel⟩, by decide +kernel⟩

end QuizApp.Home
