import QuizApp.Lists.Positions
import QuizApp.Machine.Refine
import QuizApp.App.Projection
import QuizApp.App.Quiescence

namespace QuizApp.App

open Js

def Instance.isMountedQuiz : Instance → Bool
  | .home _ => false
  | .quiz q => q.mounted

def System.backHandler (app : System) : Quiz.BackHandler.State where
  mounted := app.instances.findIdxs Instance.isMountedQuiz
  handlers := app.handlers

section Lifetimes

variable {s t : Quiz.BackHandler.State} {id : Nat}

theorem mounted_of_mount (h : Quiz.BackHandler.machine.step s (.mount id) = some t) :
    t.mounted = s.mounted ++ [id] := by
  simp only [Quiz.BackHandler.machine] at h
  split at h <;> cases h
  rfl

theorem mounted_of_unmount (h : Quiz.BackHandler.machine.step s (.unmount id) = some t) :
    id ∈ s.mounted ∧ t.mounted = s.mounted.erase id := by
  simp only [Quiz.BackHandler.machine] at h
  split at h <;> cases h
  exact ⟨‹_›, rfl⟩

end Lifetimes

section Registration

variable {customData : Quiz.CustomData} {app app' : System} {id : Nat}

theorem System.backHandler_put {i j : Instance} (hid : app.instances[id]? = some i)
    (h : j.isMountedQuiz = i.isMountedQuiz) : (app.put id j).backHandler = app.backHandler := by
  simp [System.backHandler, System.put, Positions.findIdxs_set_of_eq hid h]

theorem System.backHandler_put_home {h : Home.Instance} (hid : app.instances[id]? = some (.home h))
    (r : Home.Instance) : (app.put id (.home r)).backHandler = app.backHandler :=
  System.backHandler_put hid rfl

theorem System.backHandler_put_quiz {q r : Quiz.Instance} {e : Quiz.Event} {fx : List Effect}
    (hid : app.instances[id]? = some (.quiz q)) (hr : Quiz.Reacts customData q e r fx)
    (he : e ≠ .unmount) : (app.put id (.quiz r)).backHandler = app.backHandler :=
  System.backHandler_put hid (mounted_of_quiz hr he)

theorem System.backHandler_push_home (app : System) (h : Home.Instance) :
    (app.push (.home h)).backHandler = app.backHandler := by
  simp [System.backHandler, System.push, List.findIdxs_append, Instance.isMountedQuiz]

theorem System.mem_mounted {q : Quiz.Instance} (hid : app.instances[id]? = some (.quiz q))
    (hm : q.mounted = true) : id ∈ app.backHandler.mounted := by
  obtain ⟨hlt, hget⟩ := List.getElem?_eq_some_iff.mp hid
  exact List.mem_findIdxs_iff_exists_getElem_pos.mpr ⟨hlt, by rw [hget]; exact hm⟩

theorem System.quiz_of_mem_mounted (h : id ∈ app.backHandler.mounted) :
    ∃ q, app.instances[id]? = some (.quiz q) ∧ q.mounted = true := by
  obtain ⟨hlt, hp⟩ := List.mem_findIdxs_iff_exists_getElem_pos.mp h
  cases hi : app.instances[id] with
  | home g =>
    rw [hi] at hp
    cases hp
  | quiz q =>
    rw [hi] at hp
    exact ⟨q, List.getElem?_eq_some_iff.mpr ⟨hlt, hi⟩, hp⟩

theorem backHandler_open (app : System) (s : Quiz.State) :
    Quiz.BackHandler.machine.step app.backHandler (.mount app.instances.length) =
      some { app.push (.quiz { state := s }) with
        handlers := Quiz.componentDidMount app.handlers }.backHandler := by
  have hnew : app.instances.length ∉ app.backHandler.mounted := by
    intro hmem
    obtain ⟨hlt, -⟩ := List.mem_findIdxs_iff_exists_getElem_pos.mp hmem
    exact absurd hlt (Nat.lt_irrefl _)
  have hmounted : (app.push (.quiz { state := s })).backHandler.mounted =
      app.backHandler.mounted ++ [app.instances.length] := by
    simp [System.backHandler, System.push, List.findIdxs_append, Instance.isMountedQuiz]
  simp only [Quiz.BackHandler.machine, if_neg hnew, ← hmounted]
  rfl

theorem backHandler_close {q : Quiz.Instance} (hid : app.instances[id]? = some (.quiz q))
    (hm : q.mounted = true) :
    Quiz.BackHandler.machine.step app.backHandler (.unmount id) =
      some { app.put id (.quiz { q with mounted := false }) with
        handlers := Quiz.componentWillUnmount app.handlers }.backHandler := by
  have herase := Positions.findIdxs_set_of_false (p := Instance.isMountedQuiz)
    (b := .quiz { q with mounted := false }) hid hm rfl 0
  have hmounted : (app.put id (.quiz { q with mounted := false })).backHandler.mounted =
      app.backHandler.mounted.erase id := herase
  simp only [Quiz.BackHandler.machine, if_pos (System.mem_mounted hid hm), ← hmounted]
  rfl

theorem run_unmount {q : Quiz.Instance} (hid : app.instances[id]? = some (.quiz q))
    (hm : q.mounted = true) (hne : id ≠ app.current) :
    (machine customData).run app [.quiz id .unmount] =
      some { app.put id (.quiz { q with mounted := false }) with
        handlers := Quiz.componentWillUnmount app.handlers } := by
  simp [Machine.run, machine, step, hid, hne, Quiz.react, hm]

inductive Registers (app : System) (e : Event) (app' : System) : Prop
  | stay : ¬ AcceptedLogin app e → app'.backHandler = app.backHandler → Registers app e app'
  | mount : AcceptedLogin app e → app'.current = app.instances.length →
      Quiz.BackHandler.machine.step app.backHandler (.mount app.instances.length) =
        some app'.backHandler → Registers app e app'
  | unmount {id : Nat} : ¬ AcceptedLogin app e →
      Quiz.BackHandler.machine.step app.backHandler (.unmount id) = some app'.backHandler →
      Registers app e app'

theorem registers {e : Event} (he : e ≠ .kill) (hst : Steps customData app e app') :
    Registers app e app' := by
  cases hst with
  | @home _ _ _ _ fx hid _ _ hr hfx =>
    have hquiet : Effect.replace .quizScreen ∉ fx := by
      intro hmem
      obtain ⟨error, hx⟩ := hfx _ hmem
      cases hx
    exact .stay (not_acceptedLogin hid hr hquiet) (System.backHandler_put_home hid _)
  | storeItem hid hr =>
    exact .stay (not_acceptedLogin hid hr (by simp)) (System.backHandler_put_home hid _)
  | @login id h r s hid hr =>
    have hopen := backHandler_open (app.put id (.home r)) s
    have hlength : (app.put id (.home r)).instances.length = app.instances.length := List.length_set
    rw [System.backHandler_put_home hid, hlength] at hopen
    exact .mount (acceptedLogin_of_reacts hid hr) hlength hopen
  | quiz hid hr _ hunmount =>
    exact .stay (by simp [AcceptedLogin]) (System.backHandler_put_quiz hid hr hunmount)
  | storeFile hid hr =>
    exact .stay (by simp [AcceptedLogin]) (System.backHandler_put_quiz hid hr (by simp))
  | leave hid hr =>
    refine .stay (by simp [AcceptedLogin]) ?_
    rw [System.backHandler_push_home, System.backHandler_put_quiz hid hr (by simp)]
  | unmount hid _ hr =>
    cases hr with
    | unmount hm => exact .unmount (by simp [AcceptedLogin]) (backHandler_close hid hm)
  | back => exact .stay (by simp [AcceptedLogin]) rfl
  | kill => exact absurd rfl he

end Registration

/-- Back is taken from the user exactly while a quiz is mounted. -/
def BackBlocked (app : System) : Prop :=
  .handleBackButton ∈ app.handlers ↔ ∃ q, .quiz q ∈ app.instances ∧ q.mounted = true

/-- Back is blocked and stays so until the next input, whatever is settled, goes on or is
unmounted meanwhile. -/
def BackSafe (customData : Quiz.CustomData) (app : System) : Prop :=
  ∀ es app', (∀ e ∈ es, e.isBackground = true) → (machine customData).run app es = some app' →
    BackBlocked app'

def OpensAlone (app : System) (e : Event) : Prop :=
  AcceptedLogin app e → ∀ q, .quiz q ∈ app.instances → q.mounted = false

theorem backBlocked_iff (app : System) :
    BackBlocked app ↔ Quiz.BackHandler.Blocked app.backHandler [] := by
  have hmounted : (∃ q, .quiz q ∈ app.instances ∧ q.mounted = true) ↔
      app.backHandler.mounted ≠ [] := by
    constructor
    · rintro ⟨q, hq, hm⟩
      obtain ⟨id, hid⟩ := List.mem_iff_getElem?.mp hq
      exact List.ne_nil_of_mem (System.mem_mounted hid hm)
    · intro hne
      obtain ⟨id, hmem⟩ := List.exists_mem_of_ne_nil _ hne
      obtain ⟨q, hid, hm⟩ := System.quiz_of_mem_mounted hmem
      exact ⟨q, List.mem_of_getElem? hid, hm⟩
  exact iff_congr Iff.rfl hmounted

structure Registered (app : System) : Prop where
  kept : Quiz.BackHandler.Kept app.backHandler []
  alone : app.backHandler.mounted.length ≤ 1

namespace Registered

variable {customData : Quiz.CustomData} {app app' : System} {e : Event}

theorem boot (storage : Storage) (file : Option JsString) : Registered (boot storage file) where
  kept := .start []
  alone := Nat.zero_le 1

theorem eq_singleton (h : Registered app) {id : Nat} (hmem : id ∈ app.backHandler.mounted) :
    app.backHandler.mounted = [id] := by
  have hone := Nat.le_antisymm h.alone (List.length_pos_of_mem hmem)
  obtain ⟨k, hk⟩ := List.length_eq_one_iff.mp hone
  rw [hk] at hmem ⊢
  rw [List.mem_singleton.mp hmem]

theorem eq_nil (hopens : OpensAlone app e) (haccepted : AcceptedLogin app e) :
    app.backHandler.mounted = [] := by
  by_contra hne
  obtain ⟨id, hmem⟩ := List.exists_mem_of_ne_nil _ hne
  obtain ⟨q, hid, hm⟩ := System.quiz_of_mem_mounted hmem
  rw [hopens haccepted q (List.mem_of_getElem? hid)] at hm
  cases hm

theorem step (h : Registered app) (hopens : OpensAlone app e) (hst : Steps customData app e app') :
    Registered app' := by
  by_cases he : e = .kill
  · subst he
    cases hst
    exact .boot _ _
  cases registers he hst with
  | stay _ heq =>
    obtain ⟨hkept, halone⟩ := h
    rw [← heq] at hkept halone
    exact ⟨hkept, halone⟩
  | mount haccepted _ hmount =>
    refine ⟨h.kept.step (fun id heq => by cases heq) hmount, ?_⟩
    rw [mounted_of_mount hmount, eq_nil hopens haccepted]
    exact Nat.le_refl 1
  | unmount _ hunmount =>
    obtain ⟨hmem, hmounted⟩ := mounted_of_unmount hunmount
    have hone := h.eq_singleton hmem
    refine ⟨h.kept.step (fun k heq => by cases heq; exact hone) hunmount, ?_⟩
    rw [hmounted, hone]
    simp

theorem safe (h : Registered app) : BackSafe customData app := by
  intro es app' hes hrun
  have hopens : (machine customData).Along OpensAlone app es := by
    apply Machine.Along.of_forall
    rintro e he t ⟨id, g, rfl, -⟩
    cases hes _ he
  have hr := hopens.keeps h (fun _ _ _ h hopens hst => h.step hopens (steps_of_step hst)) hrun
  exact (backBlocked_iff app').mpr hr.kept.blocked

theorem opensAlone (h : Registered app) (hst : Steps customData app e app')
    (hsafe : BackSafe customData app') : OpensAlone app e := by
  intro haccepted q hq
  by_contra hm
  obtain ⟨id, hid⟩ := List.mem_iff_getElem?.mp hq
  have hone := h.eq_singleton (System.mem_mounted hid (by simpa using hm))
  have he : e ≠ .kill := by
    rintro rfl
    simp [AcceptedLogin] at haccepted
  cases registers he hst with
  | stay hno => exact absurd haccepted hno
  | unmount hno => exact absurd haccepted hno
  | mount _ hcurrent hmount =>
    have hkept := h.kept.step (m := []) (fun k heq => by cases heq) hmount
    have hboth : app'.backHandler.mounted = [id, app.instances.length] := by
      rw [mounted_of_mount hmount, hone]
      rfl
    have hmem : id ∈ app'.backHandler.mounted := by simp [hboth]
    obtain ⟨r, hr, hrm⟩ := System.quiz_of_mem_mounted hmem
    have hne : id ≠ app'.current := by
      rw [hcurrent]
      exact (List.getElem?_eq_some_iff.mp hid).1.ne
    have hblocked := (backBlocked_iff _).mp
      (hsafe [.quiz id .unmount] _ (by simp [Event.isBackground]) (run_unmount hr hrm hne))
    have halone := Quiz.BackHandler.unmountsAlone_of_blocked hkept (backHandler_close hr hrm)
      hblocked id rfl
    simp [hboth] at halone

end Registered

/-- Along a run Back is blocked throughout every quiz, whatever happens in the background
between the inputs, exactly as long as no login is accepted while a quiz is still mounted. -/
theorem backSafe_iff_opensAlone (customData : Quiz.CustomData) (storage : Storage)
    (file : Option JsString) (es : List Event) :
    (machine customData).Always Machine.unobserved (fun app _ => BackSafe customData app)
      (boot storage file) es ↔ (machine customData).Along OpensAlone (boot storage file) es :=
  Machine.always_iff_meets (K := fun app _ => Registered app) (.boot storage file)
    (fun _ _ _ _ h hopens hst => h.step hopens (steps_of_step hst)) (fun _ _ h => h.safe)
    (fun _ _ _ _ h hst hsafe => h.opensAlone (steps_of_step hst) hsafe) es

end QuizApp.App
