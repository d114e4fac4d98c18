import QuizApp.Home.Progress

namespace QuizApp.Home

open Js

def SetData.live : SetData → Bool
  | .calling _ value => value.isSome
  | .settled _ ok => ok

structure SaveKeeps (P : Field → Option JsString → Prop) (values : Profile (Option JsString))
    (s : SetData) : Prop where
  value : ∀ key v, s = .calling key v → P key v
  ahead : s.live = true → ∀ f : Field, s.key.rank < f.rank → P f (values.get f)

/-- What the saves have read and have still to read has the property, and so has what the
load has got. -/
structure Instance.Keeps (P : Field → Option JsString → Prop) (h : Instance) : Prop where
  saves : ∀ s ∈ h.saves, SaveKeeps P h.state.values s
  load : ∀ l, h.load = some l → ∀ f : Field, P f (l.got.get f)

/-- A save of the form has still to read the field. -/
def Instance.Ahead (h : Instance) (f : Field) : Prop :=
  ∃ s ∈ h.saves, s.live = true ∧ s.key.rank < f.rank

instance (h : Instance) (f : Field) : Decidable (h.Ahead f) :=
  inferInstanceAs (Decidable (∃ s ∈ h.saves, _))

section Keeps

variable {P Q : Field → Option JsString → Prop}

namespace SaveKeeps

variable {values : Profile (Option JsString)}

theorem imp {s : SetData} (h : SaveKeeps P values s) (himp : ∀ f v, P f v → Q f v) :
    SaveKeeps Q values s where
  value key v hv := himp key v (h.value key v hv)
  ahead hlive f hf := himp f _ (h.ahead hlive f hf)

theorem keep {values' : Profile (Option JsString)} {s : SetData} (h : SaveKeeps P values s)
    (hvalues : s.live = true → ∀ f : Field, s.key.rank < f.rank →
      P f (values.get f) → P f (values'.get f)) : SaveKeeps P values' s where
  value := h.value
  ahead hlive f hf := hvalues hlive f hf (h.ahead hlive f hf)

theorem start {s : State} (h : ∀ f : Field, P f (s.values.get f)) :
    SaveKeeps P s.values (setData s) where
  value key v hv := by
    cases hv
    exact h .firstName
  ahead _ f _ := h f

theorem settle {key : Field} {value : Option JsString} (h : SaveKeeps P values (.calling key value))
    {ok : Bool} (hok : ok = true → value.isSome) : SaveKeeps P values (.settled key ok) where
  value _ _ hv := by cases hv
  ahead hlive f hf := h.ahead (hok hlive) f hf

theorem next {key next : Field} (h : SaveKeeps P values (.settled key true))
    (hnext : key.next = some next) : SaveKeeps P values (.calling next (values.get next)) where
  value k v hv := by
    cases hv
    apply h.ahead rfl
    simp [SetData.key, Field.rank_next hnext]
  ahead _ f hf := by
    apply h.ahead rfl
    simp only [SetData.key, Field.rank_next hnext] at hf ⊢
    omega

end SaveKeeps

theorem GetData.keeps_set {point : GetData} {value : Option JsString}
    (h : ∀ f : Field, P f (point.got.get f)) (hvalue : P point.key value) (f : Field) :
    P f ((point.got.set point.key value).get f) := by
  by_cases hf : f = point.key
  · subst hf
    simpa using hvalue
  · simpa [hf] using h f

namespace Instance.Keeps

variable {h r : Instance}

theorem imp (hh : h.Keeps P) (himp : ∀ f v, P f v → Q f v) : h.Keeps Q where
  saves s hs := (hh.saves s hs).imp himp
  load l hl f := himp f _ (hh.load l hl f)

theorem fresh (hnone : ∀ f, P f none) : Instance.Keeps P {} where
  saves _ hs := by cases hs
  load l hl f := by
    cases hl
    simp [Load.got, GetData.got, hnone]

theorem set (hh : h.Keeps P) (i : Nat) {s : SetData} (hs : SaveKeeps P h.state.values s) :
    Instance.Keeps P { h with saves := h.saves.set i s } where
  saves x hx := by
    rcases List.mem_or_eq_of_mem_set hx with hx | rfl
    · exact hh.saves x hx
    · exact hs
  load := hh.load

theorem erase (hh : h.Keeps P) (i : Nat) :
    Instance.Keeps P { h with saves := h.saves.eraseIdx i } where
  saves s hs := hh.saves s (List.mem_of_mem_eraseIdx hs)
  load := hh.load

theorem congr (hh : h.Keeps P) (hsaves : r.saves = h.saves) (hload : r.load = h.load)
    (hvalues : r.state.values = h.state.values) : r.Keeps P where
  saves := by
    rw [hsaves, hvalues]
    exact hh.saves
  load := by
    rw [hload]
    exact hh.load

theorem edit (hh : h.Keeps P) {f : Field} {v : JsString} (hedit : h.Ahead f → P f (some v)) :
    Instance.Keeps P { h with state := inputHandler f h.state (some v) } where
  saves s hs := by
    refine (hh.saves s hs).keep ?_
    intro hlive g hg hkept
    by_cases hgf : g = f
    · subst hgf
      simpa [inputHandler] using hedit ⟨s, hs, hlive, hg⟩
    · simpa [inputHandler, hgf] using hkept
  load := hh.load

theorem loadDone (hh : h.Keeps P) {read : Profile (Option JsString)}
    (hread : ∀ f : Field, P f (read.get f)) :
    Instance.Keeps P { h.setState (h.state.load read) with load := none } where
  saves s hs := by
    refine (hh.saves s (by simpa using hs)).keep ?_
    intro _ f _ hkept
    simp only [Instance.setState, State.load]
    split
    · split
      · exact hread f
      · exact hkept
    · exact hkept
  load _ hl := by cases hl

theorem reacts {e : Event} {fx : List Effect} (hh : h.Keeps P) (hr : Reacts h e r fx)
    (hlogin : (∀ f : Field, f.check (h.state.values.get f) = .ok false) →
      ∀ f : Field, P f (h.state.values.get f))
    (hedit : ∀ f v, e = .edit f (some v) → h.Ahead f → P f (some v))
    (hread : ∀ point value, h.load = some (.calling point) → e = .settleLoad (.fulfilled value) →
      P point.key value) : r.Keeps P := by
  cases hr with
  | @edit f val _ =>
    cases val with
    | some v => exact hh.edit (hedit f v rfl)
    | none => exact hh
  | rejected => exact hh.congr rfl rfl rfl
  | accepted _ hvalid =>
    refine ⟨?_, hh.load⟩
    intro s hs
    rcases List.mem_append.mp hs with hs | hs
    · exact hh.saves s hs
    · cases List.mem_singleton.mp hs
      exact .start (hlogin hvalid)
  | storeItem hi =>
    exact hh.set _ ((hh.saves _ (List.mem_of_getElem? hi)).settle fun _ => rfl)
  | failItem hi =>
    exact hh.set _ ((hh.saves _ (List.mem_of_getElem? hi)).settle fun hfalse => by cases hfalse)
  | saveNext hi hnext => exact hh.set _ ((hh.saves _ (List.mem_of_getElem? hi)).next hnext)
  | saveDone => exact hh.erase _
  | saveFailed => exact hh.erase _
  | @settleLoad point reply hl =>
    refine ⟨hh.saves, ?_⟩
    intro l hl' f
    cases hl'
    cases reply with
    | fulfilled value => exact GetData.keeps_set (hh.load _ hl) (hread point value hl rfl) f
    | rejected => exact hh.load _ hl f
  | loadNext hl hnext =>
    obtain ⟨-, hgot⟩ := GetData.resume_inl hnext
    refine ⟨hh.saves, ?_⟩
    intro l hl' f
    cases hl'
    rw [Load.got, hgot]
    exact hh.load _ hl f
  | loadDone hl hresume =>
    obtain ⟨-, rfl⟩ := GetData.resume_inr hresume
    exact hh.loadDone (hh.load _ hl)
  | loadFailed => exact ⟨hh.saves, fun _ hl => by cases hl⟩
  | readDone => exact hh.congr (by simp) (by simp) (Instance.setState_values _ rfl)
  | _ => exact hh.congr rfl rfl rfl

end Instance.Keeps

end Keeps

end QuizApp.Home
