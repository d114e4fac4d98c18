import QuizApp.Js.Numeric
import QuizApp.Platform

/-! The form of `HomeScreen.js`: its state, `validate` and the four input handlers.
A field that `getData` has set from an absent key is `none`, for `null`. -/

universe u

namespace QuizApp.Home

open Js

inductive Field
  | firstName | lastName | nickName | age
  deriving DecidableEq

def Field.key : Field → String
  | .firstName => "firstName"
  | .lastName => "lastName"
  | .nickName => "nickName"
  | .age => "age"

theorem Field.key_injective : Function.Injective Field.key := by
  intro f g h
  cases f <;> cases g <;> first | rfl | (revert h; decide)

structure Profile (α : Type u) where
  firstName : α
  lastName : α
  nickName : α
  age : α
  deriving DecidableEq

namespace Profile

variable {α : Type u}

def get (p : Profile α) : Field → α
  | .firstName => p.firstName
  | .lastName => p.lastName
  | .nickName => p.nickName
  | .age => p.age

def set (p : Profile α) (f : Field) (a : α) : Profile α :=
  match f with
  | .firstName => { p with firstName := a }
  | .lastName => { p with lastName := a }
  | .nickName => { p with nickName := a }
  | .age => { p with age := a }

@[simp] theorem get_set_self (p : Profile α) (f : Field) (a : α) : (p.set f a).get f = a := by
  cases f <;> rfl

@[simp] theorem get_set_of_ne (p : Profile α) {f g : Field} (a : α) (h : g ≠ f) :
    (p.set f a).get g = p.get g := by
  cases f <;> cases g <;> first | rfl | exact absurd rfl h

theorem ext_get {p q : Profile α} (h : ∀ f, p.get f = q.get f) : p = q := by
  obtain ⟨a, b, c, d⟩ := p
  obtain ⟨a', b', c', d'⟩ := q
  have h₁ : a = a' := h .firstName
  have h₂ : b = b' := h .lastName
  have h₃ : c = c' := h .nickName
  have h₄ : d = d' := h .age
  subst h₁ h₂ h₃ h₄
  rfl

def replicate (a : α) : Profile α := ⟨a, a, a, a⟩

@[simp] theorem get_replicate (a : α) (f : Field) : (replicate a).get f = a := by cases f <;> rfl

end Profile

structure State where
  values : Profile (Option JsString) := .replicate (some [])
  score : JsString := []
  errors : Profile Bool := .replicate false
  scoreExists : Bool := false
  deriving DecidableEq

def nameCheck : Option JsString → Except JsError Bool
  | some value => .ok (trim value).isEmpty
  | none => .error .typeError

def ageCheck : Option JsString → Except JsError Bool
  | some value => .ok (value.isEmpty || isNaN value)
  | none => .error .typeError

def Field.check : Field → Option JsString → Except JsError Bool
  | .firstName | .lastName | .nickName => nameCheck
  | .age => ageCheck

def validate (s : State) : Except JsError (Bool × State) := do
  let firstNameValidator ← nameCheck s.values.firstName
  let lastNameValidator ← nameCheck s.values.lastName
  let nickNameValidator ← nameCheck s.values.nickName
  let ageValidator ← ageCheck s.values.age
  if firstNameValidator || lastNameValidator || nickNameValidator || ageValidator then
    return (false, { s with
      errors := ⟨firstNameValidator, lastNameValidator, nickNameValidator, ageValidator⟩ })
  else
    return (true, s)

def inputHandler (f : Field) (s : State) : Option JsString → State
  | some val => { s with values := s.values.set f (some val), errors := s.errors.set f false }
  | none => s

def firstNameInput : State → Option JsString → State := inputHandler .firstName
def lastNameInput : State → Option JsString → State := inputHandler .lastName
def nickNameInput : State → Option JsString → State := inputHandler .nickName
def ageInput : State → Option JsString → State := inputHandler .age

def onChangeText : Field → State → Option JsString → State
  | .firstName => firstNameInput
  | .lastName => lastNameInput
  | .nickName => nickNameInput
  | .age => ageInput

theorem onChangeText_eq (f : Field) : onChangeText f = inputHandler f := by cases f <;> rfl

def Profile.hasFault (p : Profile Bool) : Bool := p.firstName || p.lastName || p.nickName || p.age

theorem Profile.hasFault_eq_false {p : Profile Bool} :
    p.hasFault = false ↔ ∀ f, p.get f = false := by
  constructor
  · intro h f
    simp only [hasFault, Bool.or_eq_false_iff] at h
    cases f <;> simp [get, h]
  · intro h
    simp [hasFault, show p.firstName = false from h .firstName,
      show p.lastName = false from h .lastName, show p.nickName = false from h .nickName,
      show p.age = false from h .age]

theorem validate_of_checks {s : State} {faults : Profile Bool}
    (h : ∀ f : Field, f.check (s.values.get f) = .ok (faults.get f)) :
    validate s = .ok (if faults.hasFault then (false, { s with errors := faults }) else (true, s)) := by
  have h₁ : nameCheck s.values.firstName = .ok faults.firstName := h .firstName
  have h₂ : nameCheck s.values.lastName = .ok faults.lastName := h .lastName
  have h₃ : nameCheck s.values.nickName = .ok faults.nickName := h .nickName
  have h₄ : ageCheck s.values.age = .ok faults.age := h .age
  simp only [validate, h₁, h₂, h₃, h₄, bind, Except.bind, pure, Except.pure]
  change (if faults.hasFault then _ else _) = _
  cases faults.hasFault <;> rfl

theorem validate_of_valid {s : State} (h : ∀ f : Field, f.check (s.values.get f) = .ok false) :
    validate s = .ok (true, s) := by
  have hf : ∀ f : Field, f.check (s.values.get f) = .ok ((Profile.replicate false).get f) := by
    simpa using h
  rw [validate_of_checks hf]
  rfl

theorem validate_of_faulty {s : State} {faults : Profile Bool}
    (h : ∀ f : Field, f.check (s.values.get f) = .ok (faults.get f)) (hfault : faults.hasFault = true) :
    validate s = .ok (false, { s with errors := faults }) := by
  rw [validate_of_checks h, if_pos hfault]

theorem Field.check_some (f : Field) (v : JsString) : ∃ b, f.check (some v) = .ok b := by
  cases f <;> exact ⟨_, rfl⟩

theorem Field.check_none (f : Field) : f.check none = .error .typeError := by cases f <;> rfl

theorem Field.check_nil (f : Field) : f.check (some []) = .ok true := by cases f <;> rfl

def State.Strings (s : State) : Prop := ∀ f, (s.values.get f).isSome

theorem exists_checks {s : State} (h : s.Strings) :
    ∃ faults : Profile Bool, ∀ f : Field, f.check (s.values.get f) = .ok (faults.get f) := by
  have hf : ∀ f : Field, ∃ b, f.check (s.values.get f) = .ok b := by
    intro f
    obtain ⟨v, hv⟩ := Option.isSome_iff_exists.mp (h f)
    rw [hv]
    exact f.check_some v
  choose b hb using hf
  refine ⟨⟨b .firstName, b .lastName, b .nickName, b .age⟩, ?_⟩
  intro f
  rw [hb f]
  cases f <;> rfl

theorem strings_of_checks {s : State} {faults : Field → Bool}
    (h : ∀ f : Field, f.check (s.values.get f) = .ok (faults f)) : s.Strings := by
  intro f
  cases hv : s.values.get f with
  | some v => rfl
  | none =>
    have hf := h f
    rw [hv, f.check_none] at hf
    cases hf

theorem strings_of_validate {s : State} {r : Bool × State} (h : validate s = .ok r) :
    s.Strings := by
  obtain ⟨⟨a, b, c, d⟩, score, errors, scoreExists⟩ := s
  intro f
  cases a <;> cases b <;> cases c <;> cases d <;>
    first
      | (cases f <;> rfl)
      | (simp [validate, nameCheck, ageCheck, bind, Except.bind] at h)

theorem validate_isOk_iff (s : State) : (∃ r, validate s = .ok r) ↔ s.Strings := by
  constructor
  · rintro ⟨r, h⟩
    exact strings_of_validate h
  · intro h
    obtain ⟨faults, hf⟩ := exists_checks h
    exact ⟨_, validate_of_checks hf⟩

end QuizApp.Home
