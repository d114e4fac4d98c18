import QuizApp.Home.Screen

namespace QuizApp.Home

open Js

inductive Async
  | checkFile | readFile | setData | getData
  deriving DecidableEq

inductive Report
  | failed (fn : Async)
  | wrote (fn : Async)
  | escaped (fn : Async) (error : JsError)
  deriving DecidableEq

def Event.async (h : Instance) : Event → Option Async
  | .settleSave _ _ | .resumeSave _ => some .setData
  | .settleLoad _ | .resumeLoad => some .getData
  | .settleExists _ => some .checkFile
  | .settleRead _ => some .readFile
  | .resumeScore =>
    match h.readScore with
    | some (.checkFileSettled _) => some .checkFile
    | _ => some .readFile
  | .edit _ _ | .login | .unmount => none

def Event.fails : Event → Bool
  | .settleSave _ false | .settleLoad .rejected | .settleExists .rejected
  | .settleRead .rejected => true
  | _ => false

def Report.ofEffect (fn : Async) : Effect → Option Report
  | .unhandledRejection error => some (.escaped fn error)
  | _ => none

def report (h : Instance) (e : Event) : List Report :=
  match react h e, e.async h with
  | some (r, fx), some fn =>
    (if e.fails then [.failed fn] else []) ++ (if r.state = h.state then [] else [.wrote fn]) ++
      fx.filterMap (Report.ofEffect fn)
  | _, _ => []

/-- Every promise that settles is fulfilled, and a function in which a call has failed
has not touched the state. -/
structure Handled (rs : List Report) : Prop where
  fulfils : ∀ fn error, .escaped fn error ∉ rs
  keeps : ∀ fn, .failed fn ∈ rs → .wrote fn ∉ rs

/-- The code after the `await` of a failed `setItem`, `getItem` or `readFile` runs. -/
inductive EntersCatch (h : Instance) : Event → Prop
  | setData {i : Nat} {key : Field} : h.saves[i]? = some (.settled key false) →
      EntersCatch h (.resumeSave i)
  | getData {point : GetData} : h.load = some (.settled point .rejected) →
      EntersCatch h .resumeLoad
  | readFile : h.readScore = some (.readFileSettled .rejected) → EntersCatch h .resumeScore

inductive Settled (h : Instance) : Event → Prop
  | setData {i : Nat} {key : Field} {ok : Bool} : h.saves[i]? = some (.settled key ok) →
      Settled h (.resumeSave i)
  | getData {point : GetData} {reply : Reply (Option JsString)} :
      h.load = some (.settled point reply) → Settled h .resumeLoad
  | checkFile {reply : Reply Bool} : h.readScore = some (.checkFileSettled reply) →
      Settled h .resumeScore
  | readFile {reply : Reply JsString} : h.readScore = some (.readFileSettled reply) →
      Settled h .resumeScore

def Instance.Ended (h : Instance) : Async → Prop
  | .getData => h.load = none
  | .readFile => h.readScore = none
  | .setData | .checkFile => False

def Instance.Broken (h : Instance) : Async → Prop
  | .getData => h.load = none ∨ ∃ point, h.load = some (.settled point .rejected)
  | .readFile => h.readScore = none ∨ h.readScore = some (.readFileSettled .rejected)
  | .setData | .checkFile => True

structure Traced (h : Instance) (rs : List Report) : Prop where
  escaped : ∀ fn error, .escaped fn error ∉ rs
  wrote : ∀ fn, .wrote fn ∈ rs → h.Ended fn
  failed : ∀ fn, .failed fn ∈ rs → h.Broken fn ∧ .wrote fn ∉ rs

theorem Reacts.mem_report {h r : Instance} {e : Event} {fx : List Effect} {x : Report}
    (hr : Reacts h e r fx) : x ∈ report h e ↔ ∃ fn, e.async h = some fn ∧
      ((e.fails = true ∧ x = .failed fn) ∨ (r.state ≠ h.state ∧ x = .wrote fn) ∨
        ∃ error, .unhandledRejection error ∈ fx ∧ x = .escaped fn error) := by
  have heffect : ∀ fn y, Report.ofEffect fn y = some x ↔
      ∃ error, y = .unhandledRejection error ∧ x = .escaped fn error := by
    intro fn y
    cases y <;> simp [Report.ofEffect, eq_comm]
  simp only [report, react_of_reacts hr]
  cases e.async h with
  | none => simp
  | some fn =>
    simp only [List.mem_append, List.mem_filterMap, heffect, or_assoc, Option.some.injEq,
      exists_eq_left']
    apply or_congr
    · split <;> simp_all
    · apply or_congr
      · split <;> simp_all
      · constructor
        · rintro ⟨y, hy, error, rfl, rfl⟩
          exact ⟨error, hy, rfl⟩
        · rintro ⟨error, hy, rfl⟩
          exact ⟨_, hy, error, rfl, rfl⟩

theorem Reacts.ended {h r : Instance} {e : Event} {fx : List Effect} (hr : Reacts h e r fx)
    (fn : Async) (hended : h.Ended fn) : r.Ended fn := by
  cases fn with
  | getData =>
    change h.load = none at hended
    cases hr <;> simp_all [Instance.Ended]
  | readFile =>
    change h.readScore = none at hended
    cases hr <;> simp_all [Instance.Ended]
  | setData => exact hended
  | checkFile => exact hended

theorem Reacts.broken {h r : Instance} {e : Event} {fx : List Effect} (hr : Reacts h e r fx)
    (fn : Async) (hbroken : h.Broken fn) : r.Broken fn := by
  cases fn with
  | getData =>
    change h.load = none ∨ ∃ point, h.load = some (.settled point .rejected) at hbroken
    cases hr <;> simp_all [Instance.Broken]
  | readFile =>
    change h.readScore = none ∨ h.readScore = some (.readFileSettled .rejected) at hbroken
    cases hr <;> simp_all [Instance.Broken]
  | setData => trivial
  | checkFile => trivial

theorem Reacts.wrote {h r : Instance} {e : Event} {fx : List Effect} {fn : Async}
    (hr : Reacts h e r fx) (hfn : e.async h = some fn) (hstate : r.state ≠ h.state) :
    r.Ended fn ∧ ¬ h.Broken fn := by
  cases hr with
  | loadDone hl =>
    cases hfn
    exact ⟨rfl, by simp [Instance.Broken, hl]⟩
  | readDone hl =>
    simp only [Event.async, hl, Option.some.injEq] at hfn
    subst hfn
    exact ⟨rfl, by simp [Instance.Broken, hl]⟩
  | edit => cases hfn
  | rejected => cases hfn
  | _ => exact absurd rfl hstate

theorem Reacts.failed {h r : Instance} {e : Event} {fx : List Effect} {fn : Async}
    (hr : Reacts h e r fx) (hfn : e.async h = some fn) (hfails : e.fails = true) :
    r.Broken fn ∧ ¬ h.Ended fn ∧ r.state = h.state := by
  cases hr with
  | failItem =>
    cases hfn
    exact ⟨trivial, id, rfl⟩
  | @settleLoad _ reply hl =>
    cases hfn
    cases reply with
    | fulfilled value => cases hfails
    | rejected => exact ⟨.inr ⟨_, rfl⟩, by simp [Instance.Ended, hl], rfl⟩
  | settleExists =>
    cases hfn
    exact ⟨trivial, id, rfl⟩
  | @settleRead reply hl =>
    cases hfn
    cases reply with
    | fulfilled value => cases hfails
    | rejected => exact ⟨.inr rfl, by simp [Instance.Ended, hl], rfl⟩
  | _ => cases hfails

/-- No catch block lets its function fulfil: `Alert` is not in scope. -/
theorem Reacts.escaped_iff {h r : Instance} {e : Event} {fx : List Effect} (hr : Reacts h e r fx) :
    (∃ fn error, .escaped fn error ∈ report h e) ↔ EntersCatch h e := by
  simp only [hr.mem_report]
  constructor
  · rintro ⟨fn, error, fn', -, hx⟩
    have hmem : ∃ error, Effect.unhandledRejection error ∈ fx := by
      rcases hx with ⟨-, hx⟩ | ⟨-, hx⟩ | ⟨error, hmem, -⟩
      · cases hx
      · cases hx
      · exact ⟨error, hmem⟩
    cases hr with
    | saveFailed hi => exact .setData hi
    | loadFailed hl => exact .getData hl
    | readFailed hl => exact .readFile hl
    | _ => simp at hmem
  · intro hcatch
    have hmem : Effect.unhandledRejection (.referenceError "Alert") ∈ fx := by
      cases hcatch with
      | setData hi => cases hr <;> simp_all [catchBlock_eq]
      | getData hl => cases hr <;> simp_all [catchBlock_eq]
      | readFile hl => cases hr <;> simp_all [catchBlock_eq]
    obtain ⟨fn, hfn⟩ : ∃ fn, e.async h = some fn := by
      cases hcatch with
      | setData => exact ⟨_, rfl⟩
      | getData => exact ⟨_, rfl⟩
      | readFile hl => exact ⟨.readFile, by simp [Event.async, hl]⟩
    exact ⟨fn, _, fn, hfn, .inr (.inr ⟨_, hmem, rfl⟩)⟩

theorem Settled.exists_reacts {h : Instance} {e : Event} (hs : Settled h e) :
    ∃ r fx, Reacts h e r fx ∧ ∀ x ∈ fx, ∃ error, x = .unhandledRejection error := by
  cases hs with
  | @setData i key ok hi =>
    cases ok with
    | false => exact ⟨_, _, .saveFailed hi, by simp [catchBlock_eq]⟩
    | true =>
      cases hnext : key.next with
      | none => exact ⟨_, _, .saveDone hi hnext, by simp⟩
      | some next => exact ⟨_, _, .saveNext hi hnext, by simp⟩
  | @getData point reply hl =>
    cases reply with
    | rejected => exact ⟨_, _, .loadFailed hl, by simp [catchBlock_eq]⟩
    | fulfilled value =>
      cases hresume : point.resume value with
      | inl next => exact ⟨_, _, .loadNext hl hresume, by simp⟩
      | inr read => exact ⟨_, _, .loadDone hl hresume, by simp⟩
  | checkFile hl => exact ⟨_, _, .checked hl, by simp⟩
  | @readFile reply hl =>
    cases reply with
    | rejected => exact ⟨_, _, .readFailed hl, by simp [catchBlock_eq]⟩
    | fulfilled fileData => exact ⟨_, _, .readDone hl, by simp⟩

theorem Traced.fresh : Traced {} [] where
  escaped := by simp
  wrote := by simp
  failed := by simp

theorem Traced.handled {h : Instance} {rs : List Report} (ht : Traced h rs) : Handled rs where
  fulfils := ht.escaped
  keeps fn hfailed := (ht.failed fn hfailed).2

theorem Traced.reacts {h r : Instance} {e : Event} {fx : List Effect} {rs : List Report}
    (ht : Traced h rs) (hr : Reacts h e r fx) (hcatch : ¬ EntersCatch h e) :
    Traced r (rs ++ report h e) := by
  have hwrote : ∀ fn, .wrote fn ∈ report h e → r.Ended fn ∧ ¬ h.Broken fn := by
    intro fn hmem
    obtain ⟨fn', hfn, ⟨-, hx⟩ | ⟨hstate, hx⟩ | ⟨error, -, hx⟩⟩ := hr.mem_report.mp hmem
    · cases hx
    · cases hx
      exact hr.wrote hfn hstate
    · cases hx
  have hfailed : ∀ fn, .failed fn ∈ report h e →
      r.Broken fn ∧ ¬ h.Ended fn ∧ .wrote fn ∉ report h e := by
    intro fn hmem
    obtain ⟨fn', hfn, ⟨hfails, hx⟩ | ⟨-, hx⟩ | ⟨error, -, hx⟩⟩ := hr.mem_report.mp hmem
    · cases hx
      obtain ⟨hbroken, hended, hstate⟩ := hr.failed hfn hfails
      refine ⟨hbroken, hended, ?_⟩
      simp [hr.mem_report, hstate]
    · cases hx
    · cases hx
  constructor
  · intro fn error hmem
    rcases List.mem_append.mp hmem with hmem | hmem
    · exact ht.escaped fn error hmem
    · exact hcatch (hr.escaped_iff.mp ⟨fn, error, hmem⟩)
  · intro fn hmem
    rcases List.mem_append.mp hmem with hmem | hmem
    · exact hr.ended fn (ht.wrote fn hmem)
    · exact (hwrote fn hmem).1
  · intro fn hmem
    rw [List.mem_append] at hmem ⊢
    rcases hmem with hmem | hmem
    · obtain ⟨hbroken, hnot⟩ := ht.failed fn hmem
      refine ⟨hr.broken fn hbroken, ?_⟩
      rintro (h | h)
      · exact hnot h
      · exact (hwrote fn h).2 hbroken
    · obtain ⟨hbroken, hended, hnot⟩ := hfailed fn hmem
      refine ⟨hbroken, ?_⟩
      rintro (h | h)
      · exact hended (ht.wrote fn h)
      · exact hnot h

end QuizApp.Home
