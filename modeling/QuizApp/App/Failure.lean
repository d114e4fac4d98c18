import QuizApp.Quiz.Data
import QuizApp.Home.Failure
import QuizApp.App.System

namespace QuizApp.App

open Js
open Home (Report report Traced Handled EntersCatch)

inductive Note
  | home (id : Nat) (x : Report)
  | session
  deriving DecidableEq

def notes (app : System) : Event → List Note
  | .home id e =>
    match app.instances[id]? with
    | some (.home h) => (report h e).map (.home id)
    | _ => []
  | .kill => [.session]
  | _ => []

def Note.extend (id : Nat) (rs : List Report) : Note → List Report
  | .home k x => if k = id then rs ++ [x] else rs
  | .session => []

def lifeOf (id : Nat) (l : List Note) : List Report := l.foldl (Note.extend id) []

/-- The failures of every instance are handled, and whatever waits for a call that has
settled can go on. -/
structure FailuresHandled (customData : Quiz.CustomData) (app : System) (l : List Note) : Prop where
  handled : ∀ id, Handled (lifeOf id l)
  continues : ∀ id h e, app.instances[id]? = some (.home h) → Home.Settled h e →
    (step customData app (.home id e)).isSome

def NoCatch (app : System) (_ : List Note) (e : Event) : Prop :=
  ∀ id h e', e = .home id e' → app.instances[id]? = some (.home h) → ¬ EntersCatch h e'

@[simp] theorem lifeOf_home (id k : Nat) (l : List Note) (rs : List Report) :
    lifeOf id (l ++ rs.map (.home k)) = if k = id then lifeOf id l ++ rs else lifeOf id l := by
  induction rs using List.reverseRecOn with
  | nil => simp
  | append_singleton rs x ih =>
    rw [List.map_append, ← List.append_assoc, lifeOf, List.foldl_append, ← lifeOf, ih]
    simp only [List.map_cons, List.map_nil, List.foldl_cons, List.foldl_nil, Note.extend]
    split <;> simp

@[simp] theorem lifeOf_session (id : Nat) (l : List Note) : lifeOf id (l ++ [.session]) = [] := by
  simp [lifeOf, Note.extend]

def TracedAt : Option Instance → List Report → Prop
  | some (.home h), rs => Traced h rs
  | _, rs => rs = []

def Recorded (app : System) (l : List Note) : Prop := ∀ id, TracedAt app.instances[id]? (lifeOf id l)

theorem Recorded.boot {storage : Storage} {file : Option JsString} {l : List Note}
    (h : ∀ id, lifeOf id l = []) : Recorded (boot storage file) l := by
  intro id
  rw [h id]
  cases id with
  | zero => exact .fresh
  | succ id => rfl

theorem Recorded.push {app : System} {l : List Note} (h : Recorded app l) {i : Instance}
    (hi : TracedAt (some i) []) : Recorded (app.push i) l := by
  intro id
  have hid := h id
  rcases Nat.lt_trichotomy id app.instances.length with hlt | rfl | hlt
  · rwa [System.push, List.getElem?_append_left hlt]
  · rw [List.getElem?_eq_none (Nat.le_refl _)] at hid
    rw [show lifeOf _ l = [] from hid]
    simpa [System.push] using hi
  · rw [List.getElem?_eq_none (Nat.le_of_lt hlt)] at hid
    rw [List.getElem?_eq_none (by simp [System.push]; omega)]
    exact hid

theorem Recorded.put_home {app : System} {l : List Note} (h : Recorded app l) {id : Nat}
    {g r : Home.Instance} {e : Home.Event} {fx : List Effect}
    (hid : app.instances[id]? = some (.home g)) (hr : Home.Reacts g e r fx)
    (hcatch : ¬ EntersCatch g e) :
    Recorded (app.put id (.home r)) (l ++ notes app (.home id e)) := by
  intro k
  have hk := h k
  simp only [notes, hid, lifeOf_home]
  by_cases heq : k = id
  · subst heq
    rw [hid] at hk
    rw [System.put_self hid, if_pos rfl]
    exact Traced.reacts hk hr hcatch
  · rw [System.put_of_ne app _ heq, if_neg (Ne.symm heq)]
    exact hk

theorem Recorded.put_quiz {app : System} {l : List Note} (h : Recorded app l) {id : Nat}
    {q r : Quiz.Instance} (hid : app.instances[id]? = some (.quiz q)) :
    Recorded (app.put id (.quiz r)) l := by
  intro k
  have hk := h k
  by_cases heq : k = id
  · subst heq
    rw [hid] at hk
    rw [System.put_self hid]
    exact hk
  · rwa [System.put_of_ne app _ heq]

theorem Recorded.step {customData : Quiz.CustomData} {app app' : System} {e : Event}
    {l : List Note} (h : Recorded app l) (hcatch : NoCatch app l e)
    (hst : Steps customData app e app') : Recorded app' (l ++ notes app e) := by
  cases hst with
  | home hid _ _ hr _ => exact h.put_home hid hr (hcatch _ _ _ rfl hid)
  | storeItem hid hr => exact h.put_home hid hr (hcatch _ _ _ rfl hid)
  | login hid hr => exact (h.put_home hid hr (hcatch _ _ _ rfl hid)).push rfl
  | quiz hid => simpa [notes] using h.put_quiz hid
  | storeFile hid =>
    intro k
    simpa [notes] using h.put_quiz hid k
  | leave hid => simpa [notes] using (h.put_quiz hid).push (i := .home {}) Traced.fresh
  | unmount hid =>
    intro k
    simpa [notes] using h.put_quiz hid k
  | back => simpa [notes] using h
  | kill => exact .boot fun id => lifeOf_session id l

theorem Recorded.handled {app : System} {l : List Note} (h : Recorded app l) (id : Nat) :
    Handled (lifeOf id l) := by
  have hid := h id
  match hi : app.instances[id]? with
  | some (.home g) =>
    rw [hi] at hid
    exact Traced.handled hid
  | some (.quiz q) =>
    rw [hi] at hid
    rw [show lifeOf id l = [] from hid]
    exact Traced.fresh.handled
  | none =>
    rw [hi] at hid
    rw [show lifeOf id l = [] from hid]
    exact Traced.fresh.handled

theorem step_isSome_of_settled (customData : Quiz.CustomData) {app : System} {id : Nat}
    {h : Home.Instance} {e : Home.Event} (hid : app.instances[id]? = some (.home h))
    (hs : Home.Settled h e) : (step customData app (.home id e)).isSome := by
  obtain ⟨r, fx, hr, hfx⟩ := hs.exists_reacts
  have hgo : honest app h e = true ∧ (e = .unmount → id ≠ app.current) := by
    cases hs <;> exact ⟨rfl, nofun⟩
  have hperform : performAll customData (app.put id (.home r)) fx = some (app.put id (.home r)) := by
    apply performAll_inert
    intro x hx
    obtain ⟨error, rfl⟩ := hfx x hx
    rfl
  simpa [step, hid, hgo.1, (Home.react_iff _ _ _ _).mpr hr, hperform] using hgo.2

theorem noCatch_of_handled {customData : Quiz.CustomData} {app app' : System} {e : Event}
    {l : List Note} (hst : Steps customData app e app')
    (hhandled : ∀ id, Handled (lifeOf id (l ++ notes app e))) : NoCatch app l e := by
  rintro id h e' rfl hid hcatch
  have hreacts : ∃ r fx, Home.Reacts h e' r fx := by
    cases hst with
    | home hid' _ _ hr =>
      cases hid.symm.trans hid'
      exact ⟨_, _, hr⟩
    | storeItem hid' hr =>
      cases hid.symm.trans hid'
      exact ⟨_, _, hr⟩
    | login hid' hr =>
      cases hid.symm.trans hid'
      exact ⟨_, _, hr⟩
  obtain ⟨r, fx, hr⟩ := hreacts
  obtain ⟨fn, error, hmem⟩ := hr.escaped_iff.mpr hcatch
  apply (hhandled id).fulfils fn error
  simp only [notes, hid, lifeOf_home, if_true]
  exact List.mem_append_right _ hmem

/-- Every failure is handled in exactly those runs in which none gets as far as a catch
block of `setData`, `getData` or `readFile`. -/
theorem failuresHandled_iff_noCatch (customData : Quiz.CustomData) (storage : Storage)
    (file : Option JsString) (es : List Event) :
    (machine customData).Always notes (FailuresHandled customData) (boot storage file) es ↔
      (machine customData).Meets notes NoCatch (boot storage file) es :=
  Machine.always_iff_meets (K := Recorded) (.boot fun _ => rfl)
    (fun _ _ _ _ h hcatch hst => h.step hcatch (steps_of_step hst))
    (fun _ _ h => ⟨h.handled, fun _ _ _ hid hs => step_isSome_of_settled customData hid hs⟩)
    (fun _ _ _ _ _ hst hP => noCatch_of_handled (steps_of_step hst) hP.handled) es

def failedLoad : List Event := onHome 0 [.settleLoad .rejected, .resumeLoad]

theorem failed_load_escapes :
    ¬ (machine Quiz.customData).Always notes (FailuresHandled Quiz.customData) freshInstall
      failedLoad := by
  intro h
  have hend : ((machine Quiz.customData).run freshInstall failedLoad).isSome := by decide
  have hlog : lifeOf 0 ((machine Quiz.customData).log notes freshInstall failedLoad) =
      [.failed .getData, .escaped .getData (.referenceError "Alert")] := by decide
  obtain ⟨app, hrun⟩ := Option.isSome_iff_exists.mp hend
  have hhandled := (h _ (List.prefix_refl _) app hrun).handled 0
  rw [hlog] at hhandled
  exact hhandled.fulfils .getData (.referenceError "Alert") (by simp)

end QuizApp.App
