import QuizApp.Machine.Measure
import QuizApp.App.Failure
import QuizApp.App.RoundTrip
import QuizApp.App.Score
import QuizApp.App.Sessions

namespace QuizApp.Home

open Js
open Machine (total)

def SetData.work : SetData → Nat
  | .calling key _ => 8 - 2 * key.rank
  | .settled key _ => 7 - 2 * key.rank

def Load.work : Load → Nat
  | .calling point => 8 - 2 * point.key.rank
  | .settled point _ => 7 - 2 * point.key.rank

def ReadScore.work : ReadScore → Nat
  | .checkFile => 4
  | .checkFileSettled _ => 3
  | .readFile => 2
  | .readFileSettled _ => 1

def Instance.work (h : Instance) : Nat :=
  total SetData.work h.saves + h.load.elim 0 Load.work + h.readScore.elim 0 ReadScore.work +
    h.mounted.toNat

def Event.cost (e : Event) : Nat := (!e.isInput).toNat

def Event.budget : Event → Nat
  | .login => 8
  | _ => 0

@[simp] theorem Instance.setState_mounted (h : Instance) (s : State) :
    (h.setState s).mounted = h.mounted := by
  simp only [setState]
  split <;> rfl

theorem SetData.settle_work_lt (key : Field) (value : Option JsString) (ok : Bool) :
    (SetData.settled key ok).work < (SetData.calling key value).work := by
  have := key.rank_lt
  simp only [SetData.work]
  omega

theorem SetData.next_work_lt {key next : Field} (hnext : key.next = some next)
    (value : Option JsString) (ok : Bool) :
    (SetData.calling next value).work < (SetData.settled key ok).work := by
  have := next.rank_lt
  simp only [SetData.work, Field.rank_next hnext] at this ⊢
  omega

theorem SetData.settled_work_pos (key : Field) (ok : Bool) : 0 < (SetData.settled key ok).work := by
  have := key.rank_lt
  simp only [SetData.work]
  omega

theorem Load.settle_work_lt (point : GetData) (reply : Reply (Option JsString)) :
    (Load.settled point reply).work < (Load.calling point).work := by
  have := point.key.rank_lt
  simp only [Load.work]
  omega

theorem Load.next_work_lt {point next : GetData} {value : Option JsString}
    (hnext : point.resume value = .inl next) (reply : Reply (Option JsString)) :
    (Load.calling next).work < (Load.settled point reply).work := by
  have := next.key.rank_lt
  simp only [Load.work, (GetData.resume_inl hnext).1] at this ⊢
  omega

theorem Load.settled_work_pos (point : GetData) (reply : Reply (Option JsString)) :
    0 < (Load.settled point reply).work := by
  have := point.key.rank_lt
  simp only [Load.work]
  omega

namespace Instance

variable {h : Instance} {i : Nat} {save save' : SetData} {load : Load} {point : ReadScore}

theorem work_setState (h : Instance) (s : State) : (h.setState s).work = h.work := by
  simp [work]

theorem work_append_save (h : Instance) (save : SetData) :
    { h with saves := h.saves ++ [save] }.work = h.work + save.work := by
  simp only [work, Machine.total_append, Machine.total_cons, Machine.total_nil]
  omega

theorem work_set_save_lt (hi : h.saves[i]? = some save) (hlt : save'.work < save.work) :
    { h with saves := h.saves.set i save' }.work < h.work := by
  have := Machine.total_set (μ := SetData.work) hi save'
  simp only [work]
  omega

theorem work_erase_save_lt (hi : h.saves[i]? = some save) (hpos : 0 < save.work) :
    { h with saves := h.saves.eraseIdx i }.work < h.work := by
  have := Machine.total_eraseIdx (μ := SetData.work) hi
  simp only [work]
  omega

theorem work_load_lt (hload : h.load = some load) {load' : Option Load}
    (hlt : load'.elim 0 Load.work < load.work) : { h with load := load' }.work < h.work := by
  simp only [work, hload, Option.elim_some]
  omega

theorem work_readScore_lt (hread : h.readScore = some point) {point' : Option ReadScore}
    (hlt : point'.elim 0 ReadScore.work < point.work) :
    { h with readScore := point' }.work < h.work := by
  simp only [work, hread, Option.elim_some]
  omega

theorem work_unmount_lt (hm : h.mounted = true) : { h with mounted := false }.work < h.work := by
  simp [work, hm]

end Instance

theorem Reacts.work_lt {h r : Instance} {e : Event} {fx : List Effect} (hr : Reacts h e r fx)
    (he : e.isInput = false) : r.work < h.work := by
  cases hr with
  | edit | rejected | accepted => cases he
  | storeItem hi => exact Instance.work_set_save_lt hi (SetData.settle_work_lt _ _ _)
  | failItem hi => exact Instance.work_set_save_lt hi (SetData.settle_work_lt _ _ _)
  | saveNext hi hnext => exact Instance.work_set_save_lt hi (SetData.next_work_lt hnext _ _)
  | saveDone hi => exact Instance.work_erase_save_lt hi (SetData.settled_work_pos _ _)
  | saveFailed hi => exact Instance.work_erase_save_lt hi (SetData.settled_work_pos _ _)
  | @settleLoad _ reply hl => exact Instance.work_load_lt hl (Load.settle_work_lt _ reply)
  | loadNext hl hnext => exact Instance.work_load_lt hl (Load.next_work_lt hnext _)
  | @loadDone point value read hl =>
    rw [← h.work_setState (h.state.load read)]
    exact Instance.work_load_lt (by simpa using hl) (Load.settled_work_pos _ _)
  | loadFailed hl => exact Instance.work_load_lt hl (Load.settled_work_pos _ _)
  | settleExists hl => exact Instance.work_readScore_lt hl (by simp [ReadScore.work])
  | settleRead hl => exact Instance.work_readScore_lt hl (by simp [ReadScore.work])
  | checked hl =>
    refine Instance.work_readScore_lt hl ?_
    split <;> simp [ReadScore.work]
  | @readDone fileData hl =>
    rw [← h.work_setState { h.state with scoreExists := true, score := fileData }]
    exact Instance.work_readScore_lt (by simpa using hl) (by simp [ReadScore.work])
  | readFailed hl => exact Instance.work_readScore_lt hl (by simp [ReadScore.work])
  | unmount hm => exact Instance.work_unmount_lt hm

theorem Reacts.cost_le {h r : Instance} {e : Event} {fx : List Effect} (hr : Reacts h e r fx) :
    e.cost + r.work ≤ e.budget + h.work := by
  cases he : e.isInput with
  | false =>
    have := hr.work_lt he
    simp only [Event.cost, he, Bool.not_false, Bool.toNat_true]
    omega
  | true =>
    cases hr with
    | edit => exact Nat.le_refl _
    | rejected => simp [Event.cost, Event.isInput, Instance.work]
    | accepted =>
      have hsave : (setData h.state).work = 8 := rfl
      simp only [Event.cost, he, Event.budget, Instance.work_append_save, hsave, Bool.not_true,
        Bool.toNat_false]
      omega
    | _ => cases he

end QuizApp.Home

namespace QuizApp.Quiz

open Machine (total)

/-- A write ends by mounting a `HomeScreen`, whose own work it pays for. -/
def Write.work : Write → Nat
  | .calling _ => 15
  | .settled _ => 14

def Instance.work (q : Instance) : Nat := total Write.work q.writes + q.mounted.toNat

def Event.cost : Event → Nat
  | .input _ => 0
  | _ => 1

def Event.budget : Event → Nat
  | .input .press => 15
  | _ => 0

def Event.mounts : Event → Nat
  | .resume _ => ({} : Home.Instance).work
  | _ => 0

theorem Reacts.cost_le {customData : CustomData} {q r : Instance} {e : Event} {fx : List Effect}
    (hr : Reacts customData q e r fx) : e.cost + (r.work + e.mounts) ≤ e.budget + q.work := by
  cases hr with
  | tap => exact Nat.le_refl _
  | next => simp [Event.cost, Event.mounts, Instance.work]
  | submit =>
    simp only [Event.cost, Event.mounts, Event.budget, Instance.work, Machine.total_append,
      Machine.total_cons, Machine.total_nil, Write.work]
    omega
  | @settle i ok content hi =>
    have hset := Machine.total_set (μ := Write.work) hi (.settled ok)
    simp only [Event.cost, Event.mounts, Event.budget, Instance.work, Write.work] at hset ⊢
    omega
  | @resume i ok hi =>
    have herase := Machine.total_eraseIdx (μ := Write.work) hi
    have hfresh : ({} : Home.Instance).work = 13 := rfl
    simp only [Event.cost, Event.mounts, Event.budget, Instance.work, Write.work, hfresh] at herase ⊢
    omega
  | unmount hm =>
    simp only [Event.cost, Event.mounts, Event.budget, Instance.work, hm, Bool.toNat_true,
      Bool.toNat_false]
    omega

end QuizApp.Quiz

namespace QuizApp.App

open Js
open Machine (total)

def Instance.work : Instance → Nat
  | .home h => h.work
  | .quiz q => q.work

def System.work (app : System) : Nat := total Instance.work app.instances

/-- What happens without the user: a call settles, an async function goes on, a replaced
screen is unmounted. -/
def Event.isBackground : Event → Bool
  | .home _ e => !e.isInput
  | .quiz _ (.input _) | .back | .kill => false
  | .quiz _ _ => true

def Event.budget : Event → Nat
  | .home _ .login => 9
  | .quiz _ (.input .press) => 15
  | .kill => 13
  | _ => 0

theorem System.work_put {app : System} {id : Nat} {i j : Instance}
    (hid : app.instances[id]? = some i) : (app.put id j).work + i.work = app.work + j.work :=
  Machine.total_set hid j

theorem System.work_push (app : System) (i : Instance) : (app.push i).work = app.work + i.work := by
  simp [System.work, System.push]

theorem System.work_boot (storage : Storage) (file : Option JsString) :
    (boot storage file).work = 13 := rfl

theorem Event.isBackground_home (id : Nat) (e : Home.Event) :
    (Event.home id e).isBackground.toNat = e.cost := rfl

theorem Event.isBackground_quiz (id : Nat) (e : Quiz.Event) :
    (Event.quiz id e).isBackground.toNat = e.cost := by
  cases e <;> rfl

theorem Event.home_budget_le (id : Nat) (e : Home.Event) :
    e.budget ≤ (Event.home id e).budget := by
  cases e with
  | login => exact Nat.le_succ 8
  | _ => exact Nat.zero_le _

theorem Event.quiz_budget_le (id : Nat) (e : Quiz.Event) :
    e.budget ≤ (Event.quiz id e).budget := by
  cases e with
  | input i => cases i <;> exact Nat.le_refl _
  | _ => exact Nat.zero_le _

section Cost

variable {customData : Quiz.CustomData} {app : System} {id : Nat}

theorem System.cost_put_home {h r : Home.Instance} {e : Home.Event} {fx : List Effect}
    (hid : app.instances[id]? = some (.home h)) (hr : Home.Reacts h e r fx) :
    (Event.home id e).isBackground.toNat + (app.put id (.home r)).work ≤ e.budget + app.work := by
  have hput := System.work_put (j := .home r) hid
  have hcost := hr.cost_le
  rw [Event.isBackground_home]
  simp only [Instance.work] at hput
  omega

theorem System.cost_put_quiz {q r : Quiz.Instance} {e : Quiz.Event} {fx : List Effect}
    (hid : app.instances[id]? = some (.quiz q)) (hr : Quiz.Reacts customData q e r fx) :
    (Event.quiz id e).isBackground.toNat + (app.put id (.quiz r)).work + e.mounts ≤
      (Event.quiz id e).budget + app.work := by
  have hput := System.work_put (j := .quiz r) hid
  have hcost := hr.cost_le
  have := Event.quiz_budget_le id e
  rw [Event.isBackground_quiz]
  simp only [Instance.work] at hput
  omega

theorem Steps.cost_le {app' : System} {e : Event} (hst : Steps customData app e app') :
    e.isBackground.toNat + app'.work ≤ e.budget + app.work := by
  cases hst with
  | home hid _ _ hr =>
    exact (System.cost_put_home hid hr).trans
      (Nat.add_le_add_right (Event.home_budget_le _ _) _)
  | storeItem hid hr => exact System.cost_put_home hid hr
  | @login id h r s hid hr =>
    have hput := System.cost_put_home hid hr
    have hpush := System.work_push (app.put id (.home r)) (.quiz { state := s })
    have hquiz : (Instance.quiz { state := s }).work = 1 := rfl
    simp only [Home.Event.budget, Event.budget] at hput ⊢
    change _ + ((app.put id (.home r)).push (.quiz { state := s })).work ≤ _
    omega
  | quiz hid hr => exact (Nat.le_add_right _ _).trans (System.cost_put_quiz hid hr)
  | storeFile hid hr => exact System.cost_put_quiz hid hr
  | @leave id i q r fx hid hr =>
    rw [System.work_push, ← Nat.add_assoc]
    exact System.cost_put_quiz hid hr
  | unmount hid _ hr => exact System.cost_put_quiz hid hr
  | back => exact Nat.le_of_eq rfl
  | kill =>
    rw [System.work_boot]
    exact Nat.le_add_right _ _

end Cost

/-- In every run from any stored data, the settled calls, the continuations and the unmounts
are together at most 13 for each session, 9 for each login press and 15 for each press of
the button of a quiz. -/
theorem background_le_budget (customData : Quiz.CustomData) (storage : Storage)
    (file : Option JsString) {es : List Event} {app : System}
    (hrun : (machine customData).run (boot storage file) es = some app) :
    es.countP Event.isBackground ≤ 13 + total Event.budget es := by
  have hcost := Machine.total_cost_le (c := fun e : Event => e.isBackground.toNat)
    (b := Event.budget) (μ := System.work)
    (fun _ _ _ hst => (steps_of_step hst).cost_le) hrun
  rw [System.work_boot] at hcost
  rw [← Machine.total_toNat]
  omega

theorem oneQuiz_background_le :
    oneQuiz.countP Event.isBackground ≤ 13 + total Event.budget oneQuiz := by
  have hend : ((machine Quiz.customData).run freshInstall oneQuiz).isSome := by decide +kernel
  obtain ⟨app, hrun⟩ := Option.isSome_iff_exists.mp hend
  exact background_le_budget Quiz.customData _ _ hrun

/-- No call is under way, nothing is left to continue, and only the current screen is mounted. -/
structure AtRest (app : System) : Prop where
  saves : ∀ (id : Nat) h, app.instances[id]? = some (.home h) → h.saves = []
  load : ∀ (id : Nat) h, app.instances[id]? = some (.home h) → h.load = none
  readScore : ∀ (id : Nat) h, app.instances[id]? = some (.home h) → h.readScore = none
  writes : ∀ (id : Nat) q, app.instances[id]? = some (.quiz q) → q.writes = []
  home : ∀ (id : Nat) h, app.instances[id]? = some (.home h) → id ≠ app.current → h.mounted = false
  quiz : ∀ (id : Nat) q, app.instances[id]? = some (.quiz q) → id ≠ app.current → q.mounted = false

def System.atRest (app : System) : Bool :=
  app.instances.zipIdx.all fun
    | (.home h, id) => h.saves.isEmpty && h.load.isNone && h.readScore.isNone &&
      (decide (id = app.current) || !h.mounted)
    | (.quiz q, id) => q.writes.isEmpty && (decide (id = app.current) || !q.mounted)

theorem System.atRest_iff (app : System) : app.atRest = true ↔ AtRest app := by
  simp only [System.atRest, List.all_eq_true]
  constructor
  · intro h
    have hhome : ∀ (id : Nat) g, app.instances[id]? = some (.home g) →
        g.saves = [] ∧ g.load = none ∧ g.readScore = none ∧ (id = app.current ∨ g.mounted = false) := by
      intro id g hid
      simpa [and_assoc] using h _ (List.mk_mem_zipIdx_iff_getElem?.mpr hid)
    have hquiz : ∀ (id : Nat) q, app.instances[id]? = some (.quiz q) →
        q.writes = [] ∧ (id = app.current ∨ q.mounted = false) := by
      intro id q hid
      simpa using h _ (List.mk_mem_zipIdx_iff_getElem?.mpr hid)
    exact ⟨fun id g hid => (hhome id g hid).1, fun id g hid => (hhome id g hid).2.1,
      fun id g hid => (hhome id g hid).2.2.1, fun id q hid => (hquiz id q hid).1,
      fun id g hid hne => (hhome id g hid).2.2.2.resolve_left hne,
      fun id q hid hne => (hquiz id q hid).2.resolve_left hne⟩
  · rintro hrest ⟨i, id⟩ hi
    have hid := List.mk_mem_zipIdx_iff_getElem?.mp hi
    cases i with
    | home h =>
      simp [hrest.saves id h hid, hrest.load id h hid, hrest.readScore id h hid]
      exact Classical.or_iff_not_imp_left.mpr (hrest.home id h hid)
    | quiz q =>
      simp [hrest.writes id q hid]
      exact Classical.or_iff_not_imp_left.mpr (hrest.quiz id q hid)

instance (app : System) : Decidable (AtRest app) := decidable_of_iff _ app.atRest_iff

section Rest

variable {app : System} (hrest : AtRest app)
include hrest

theorem AtRest.noSaves : NoSaves app := by
  intro h hmem
  obtain ⟨id, hid⟩ := List.mem_iff_getElem?.mp hmem
  exact hrest.saves id h hid

theorem AtRest.noLoads : NoLoads app := by
  intro h hmem
  obtain ⟨id, hid⟩ := List.mem_iff_getElem?.mp hmem
  exact hrest.load id h hid

theorem AtRest.noWrites : NoWrites app := by
  intro q hmem
  obtain ⟨id, hid⟩ := List.mem_iff_getElem?.mp hmem
  exact hrest.writes id q hid

end Rest

theorem AtRest.not_reacts_home {app : System} (hrest : AtRest app) {id : Nat} {h r : Home.Instance}
    {e : Home.Event} {fx : List Effect} (hid : app.instances[id]? = some (.home h))
    (hr : Home.Reacts h e r fx) (hcurrent : e = .unmount → id ≠ app.current)
    (he : e.isInput = false) : False := by
  have hsaves := hrest.saves id h hid
  have hload := hrest.load id h hid
  have hread := hrest.readScore id h hid
  cases hr with
  | edit | rejected | accepted => cases he
  | unmount hm => simp [hrest.home id h hid (hcurrent rfl)] at hm
  | _ => simp_all

theorem AtRest.not_reacts_quiz {customData : Quiz.CustomData} {app : System} (hrest : AtRest app)
    {id : Nat} {q r : Quiz.Instance} {e : Quiz.Event} {fx : List Effect}
    (hid : app.instances[id]? = some (.quiz q)) (hr : Quiz.Reacts customData q e r fx)
    (hcurrent : e = .unmount → id ≠ app.current) (he : ∀ i, e ≠ .input i) : False := by
  have hwrites := hrest.writes id q hid
  cases hr with
  | tap | next | submit => exact he _ rfl
  | unmount hm => simp [hrest.quiz id q hid (hcurrent rfl)] at hm
  | _ => simp_all

theorem AtRest.step_eq_none {customData : Quiz.CustomData} {app : System} (hrest : AtRest app)
    {e : Event} (he : e.isBackground = true) : step customData app e = none := by
  by_contra hsome
  obtain ⟨app', hstep⟩ := Option.ne_none_iff_exists'.mp hsome
  cases steps_of_step hstep with
  | home hid _ hcurrent hr =>
    exact hrest.not_reacts_home hid hr hcurrent (by simpa [Event.isBackground] using he)
  | storeItem hid hr => exact hrest.not_reacts_home hid hr nofun rfl
  | login => cases he
  | quiz hid hr _ hne =>
    refine hrest.not_reacts_quiz hid hr (fun h => absurd h hne) ?_
    rintro i rfl
    cases he
  | storeFile hid hr => exact hrest.not_reacts_quiz hid hr nofun nofun
  | leave hid hr => exact hrest.not_reacts_quiz hid hr nofun nofun
  | unmount hid hcurrent hr => exact hrest.not_reacts_quiz hid hr (fun _ => hcurrent) nofun
  | back => cases he
  | kill => cases he

def Event.isContinuation : Event → Bool
  | .home _ (.resumeSave _) | .home _ .resumeLoad | .home _ .resumeScore | .home _ .unmount
  | .quiz _ (.resume _) | .quiz _ .unmount => true
  | _ => false

structure Settles (customData : Quiz.CustomData) (app : System) (E : Event → Prop) : Prop where
  save : ∀ (id : Nat) h i key v, app.instances[id]? = some (.home h) →
    h.saves[i]? = some (.calling key v) → ∃ ok, E (.home id (.settleSave i ok)) ∧
      (step customData app (.home id (.settleSave i ok))).isSome
  load : ∀ (id : Nat) h point, app.instances[id]? = some (.home h) →
    h.load = some (.calling point) → ∃ reply, E (.home id (.settleLoad reply)) ∧
      (step customData app (.home id (.settleLoad reply))).isSome
  checkFile : ∀ (id : Nat) h, app.instances[id]? = some (.home h) →
    h.readScore = some .checkFile → ∃ reply, E (.home id (.settleExists reply)) ∧
      (step customData app (.home id (.settleExists reply))).isSome
  readFile : ∀ (id : Nat) h, app.instances[id]? = some (.home h) →
    h.readScore = some .readFile → ∃ reply, E (.home id (.settleRead reply)) ∧
      (step customData app (.home id (.settleRead reply))).isSome
  write : ∀ (id : Nat) q i content, app.instances[id]? = some (.quiz q) →
    q.writes[i]? = some (.calling content) → ∃ ok, E (.quiz id (.settle i ok)) ∧
      (step customData app (.quiz id (.settle i ok))).isSome

section Progress

variable {customData : Quiz.CustomData} {app : System} {id : Nat}

theorem step_home_isSome {h r : Home.Instance} {e : Home.Event}
    (hid : app.instances[id]? = some (.home h)) (hhonest : honest app h e = true)
    (hcurrent : e = .unmount → id ≠ app.current) (hr : Home.Reacts h e r []) :
    (step customData app (.home id e)).isSome := by
  rw [step_home_quiet hid hhonest hcurrent hr]
  rfl

theorem step_settle_isSome {q : Quiz.Instance} {i : Nat} {content : JsString}
    (hid : app.instances[id]? = some (.quiz q)) (hi : q.writes[i]? = some (.calling content))
    (ok : Bool) : (step customData app (.quiz id (.settle i ok))).isSome := by
  cases ok <;> simp [step, hid, Quiz.react, hi, performAll, perform]

theorem atRest_of_stuck {E : Event → Prop} (hsettles : Settles customData app E)
    (hE : ∀ e : Event, e.isContinuation = true → E e)
    (hstuck : ∀ e : Event, E e → step customData app e = none) : AtRest app := by
  have hnone : ∀ e : Event, E e → ¬ (step customData app e).isSome := by
    intro e he
    simp [hstuck e he]
  constructor
  · intro id h hid
    match hsaves : h.saves with
    | [] => rfl
    | .calling key v :: _ =>
      obtain ⟨ok, he, hsome⟩ := hsettles.save id h 0 key v hid (by simp [hsaves])
      exact absurd hsome (hnone _ he)
    | .settled key ok :: _ =>
      have hzero : h.saves[0]? = some (.settled key ok) := by simp [hsaves]
      exact absurd (step_isSome_of_settled customData hid (.setData hzero)) (hnone _ (hE _ rfl))
  · intro id h hid
    match hload : h.load with
    | none => rfl
    | some (.calling point) =>
      obtain ⟨reply, he, hsome⟩ := hsettles.load id h point hid hload
      exact absurd hsome (hnone _ he)
    | some (.settled point reply) =>
      exact absurd (step_isSome_of_settled customData hid (.getData hload)) (hnone _ (hE _ rfl))
  · intro id h hid
    match hread : h.readScore with
    | none => rfl
    | some .checkFile =>
      obtain ⟨reply, he, hsome⟩ := hsettles.checkFile id h hid hread
      exact absurd hsome (hnone _ he)
    | some (.checkFileSettled reply) =>
      exact absurd (step_isSome_of_settled customData hid (.checkFile hread)) (hnone _ (hE _ rfl))
    | some .readFile =>
      obtain ⟨reply, he, hsome⟩ := hsettles.readFile id h hid hread
      exact absurd hsome (hnone _ he)
    | some (.readFileSettled reply) =>
      exact absurd (step_isSome_of_settled customData hid (.readFile hread)) (hnone _ (hE _ rfl))
  · intro id q hid
    match hwrites : q.writes with
    | [] => rfl
    | .calling content :: _ =>
      obtain ⟨ok, he, hsome⟩ := hsettles.write id q 0 content hid (by simp [hwrites])
      exact absurd hsome (hnone _ he)
    | .settled ok :: _ =>
      refine absurd ?_ (hnone (.quiz id (.resume 0)) (hE _ rfl))
      cases ok <;> simp [step, hid, Quiz.react, hwrites, performAll, perform, Quiz.afterWrite]
  · intro id h hid hcurrent
    by_contra hm
    have hm : h.mounted = true := by simpa using hm
    exact hnone (.home id .unmount) (hE _ rfl)
      (step_home_isSome hid rfl (fun _ => hcurrent) (.unmount hm))
  · intro id q hid hcurrent
    by_contra hm
    have hm : q.mounted = true := by simpa using hm
    apply hnone (.quiz id .unmount) (hE _ rfl)
    simp [step, hid, hcurrent, Quiz.react, hm]

theorem settles_background (customData : Quiz.CustomData) (app : System) :
    Settles customData app fun e => e.isBackground = true where
  save _ _ _ _ _ hid hi := ⟨false, rfl, step_home_isSome hid rfl nofun (.failItem hi)⟩
  load _ _ _ hid hl := ⟨.rejected, rfl, step_home_isSome hid rfl nofun (.settleLoad hl)⟩
  checkFile _ _ hid hl := ⟨.rejected, rfl, step_home_isSome hid rfl nofun (.settleExists hl)⟩
  readFile _ _ hid hl := ⟨.rejected, rfl, step_home_isSome hid rfl nofun (.settleRead hl)⟩
  write _ _ _ _ hid hi := ⟨false, rfl, step_settle_isSome hid hi false⟩

theorem Event.isBackground_of_isContinuation {e : Event} (he : e.isContinuation = true) :
    e.isBackground = true := by
  match e with
  | .home _ e => cases e <;> first | rfl | cases he
  | .quiz _ e => cases e <;> first | rfl | cases he
  | .back => cases he
  | .kill => cases he

theorem atRest_iff (customData : Quiz.CustomData) (app : System) :
    AtRest app ↔ ∀ e : Event, e.isBackground = true → step customData app e = none :=
  ⟨fun hrest _ he => hrest.step_eq_none he, fun hstuck => atRest_of_stuck
    (settles_background customData app) (fun _ => Event.isBackground_of_isContinuation) hstuck⟩

end Progress

theorem System.current_put {app : System} {id : Nat} {i j : Instance}
    (hid : app.instances[id]? = some j) (hcurrent : id = app.current) :
    (app.put id i).instances[(app.put id i).current]? = some i := by
  subst hcurrent
  exact System.put_self hid

theorem System.current_put_of_ne {app : System} {id : Nat} {i j : Instance}
    (hj : app.instances[app.current]? = some j) (hne : id ≠ app.current) :
    (app.put id i).instances[(app.put id i).current]? = some j :=
  (System.put_of_ne app i hne.symm).trans hj

def Leaving (app : System) : Prop :=
  ¬ NoWrites app ∨ ∃ h, app.instances[app.current]? = some (.home h)

theorem Leaving.put_home {app : System} {id : Nat} {h r : Home.Instance}
    (hl : Leaving app) (hid : app.instances[id]? = some (.home h)) :
    Leaving (app.put id (.home r)) := by
  rcases hl with hwrites | ⟨g, hg⟩
  · exact .inl fun hn => hwrites (hn.of_put_home hid)
  · by_cases hcurrent : id = app.current
    · exact .inr ⟨r, System.current_put hid hcurrent⟩
    · exact .inr ⟨g, System.current_put_of_ne hg hcurrent⟩

theorem Leaving.put_quiz {app : System} {id : Nat} {q r : Quiz.Instance} (hl : Leaving app)
    (hid : app.instances[id]? = some (.quiz q)) (hwrites : r.writes = [] → q.writes = []) :
    Leaving (app.put id (.quiz r)) := by
  rcases hl with hn | ⟨g, hg⟩
  · exact .inl fun hn' => hn (hn'.of_put_quiz hid hwrites)
  · refine .inr ⟨g, System.current_put_of_ne hg ?_⟩
    rintro rfl
    cases hid.symm.trans hg

theorem Leaving.step {customData : Quiz.CustomData} {app app' : System} {e : Event}
    (hl : Leaving app) (he : e.isBackground = true) (hst : Steps customData app e app') :
    Leaving app' := by
  cases hst with
  | home hid => exact hl.put_home hid
  | storeItem hid => exact hl.put_home hid
  | login => cases he
  | quiz hid hr hfx => exact hl.put_quiz hid (writes_of_reacts hr (ne_resume_of_reacts hr hfx))
  | storeFile hid hr => exact hl.put_quiz hid (writes_of_reacts hr nofun)
  | leave => exact .inr ⟨{}, System.push_current _ _⟩
  | unmount hid _ hr => exact hl.put_quiz hid (writes_of_reacts hr nofun)
  | back => cases he
  | kill => cases he

theorem Leaving.run {customData : Quiz.CustomData} {app app' : System} {es : List Event}
    (hl : Leaving app) (hes : ∀ e ∈ es, e.isBackground = true)
    (hrun : (machine customData).run app es = some app') : Leaving app' := by
  have hmeets : (machine customData).Meets Machine.unobserved (fun _ _ e => e.isBackground = true)
      app es := fun pre e hpre _ _ _ _ => hes e (hpre.subset (by simp))
  exact hmeets.invariant (K := fun app _ => Leaving app) hl
    (fun _ _ _ _ hl he hst => hl.step he (steps_of_step hst)) hrun

theorem background_decreases {customData : Quiz.CustomData} (app : System) (e : Event) (app' : System)
    (he : e.isBackground = true) (hst : (machine customData).step app e = some app') :
    app'.work < app.work := by
  have hcost := (steps_of_step hst).cost_le
  have hbudget : e.budget = 0 := by
    match e with
    | .home _ e => cases e <;> first | rfl | cases he
    | .quiz _ e => cases e <;> first | rfl | cases he
    | .back => rfl
    | .kill => cases he
  simp only [he, hbudget, Bool.toNat_true] at hcost
  omega

/-- Left to itself, the app comes to rest from every state: no order of settled calls,
continuations and unmounts goes on for more than `work` events, one that cannot go on has
come to rest, and if a score was being written it has come to rest on a `HomeScreen`. -/
theorem background_comes_to_rest (customData : Quiz.CustomData) (app : System) :
    (∀ es app', (∀ e ∈ es, e.isBackground = true) → (machine customData).run app es = some app' →
      es.length ≤ app.work ∧
      ((∀ e : Event, e.isBackground = true → (machine customData).step app' e = none) →
        AtRest app' ∧
          (¬ NoWrites app → ∃ h, app'.instances[app'.current]? = some (.home h)))) ∧
    ∃ es app', (∀ e ∈ es, e.isBackground = true) ∧ (machine customData).run app es = some app' ∧
      AtRest app' := by
  refine ⟨?_, ?_⟩
  · intro es app' hes hrun
    have hlength := Machine.length_add_le background_decreases hes hrun
    refine ⟨by omega, fun hstuck => ?_⟩
    have hrest := (atRest_iff customData app').mpr hstuck
    refine ⟨hrest, fun hwrites => ?_⟩
    rcases Leaving.run (.inl hwrites) hes hrun with hn | hhome
    · exact absurd hrest.noWrites hn
    · exact hhome
  · refine Machine.exists_run_of_decreases background_decreases ?_ app
    intro app hrest
    by_contra hnone
    apply hrest
    refine (atRest_iff customData app).mpr fun e he => ?_
    by_contra hsome
    exact hnone ⟨e, he, Option.isSome_iff_ne_none.mpr hsome⟩

end QuizApp.App
