import QuizApp.Quiz.Grader
import QuizApp.App.System

namespace QuizApp.App

open Js
open Home (ann typeEvents)

inductive ScoreEntry
  | submitted (correctCount : Nat)
  | stored
  deriving DecidableEq

def scoreEntries (customData : Quiz.CustomData) (app : System) : Event → List ScoreEntry
  | .quiz id (.input .press) =>
    match app.instances[id]? with
    | some (.quiz q) =>
      match Quiz.react customData q (.input .press) with
      | some (r, _) =>
        if q.state.currentQuestion = q.state.questionCount then [.submitted r.state.correctCount]
        else []
      | none => []
    | _ => []
  | .quiz _ (.settle _ true) => [.stored]
  | _ => []

def Submitted (l : List ScoreEntry) (content : JsString) : Prop :=
  ∃ n, .submitted n ∈ l ∧ content = numeral n

def NoWrites (app : System) : Prop := ∀ q, .quiz q ∈ app.instances → q.writes = []

instance (app : System) : Decidable (NoWrites app) :=
  inferInstanceAs (Decidable (∀ q, .quiz q ∈ app.instances → q.writes = []))

/-- No file operation is under way and no continuation of one is due. -/
def FilesIdle (app : System) : Prop :=
  NoWrites app ∧ ∀ h, .home h ∈ app.instances → h.readScore = none

/-- The score that a `HomeScreen` shows or is about to show has the property `P`. -/
structure Displays (P : JsString → Prop) (h : Home.Instance) : Prop where
  shown : h.state.scoreExists = true → P h.state.score
  read : ∀ fileData, h.readScore = some (.readFileSettled (.fulfilled fileData)) → P fileData

structure Tracked (app : System) (l : List ScoreEntry) : Prop where
  calling : ∀ q content, .quiz q ∈ app.instances → .calling content ∈ q.writes → Submitted l content
  file : ∀ content, app.file = some content → .stored ∈ l ∧ Submitted l content
  current : NoWrites app → ∀ h, app.instances[app.current]? = some (.home h) →
    Displays (app.file = some ·) h

theorem Submitted.mono {l m : List ScoreEntry} {content : JsString} (h : Submitted l content)
    (hlm : l ⊆ m) : Submitted m content := by
  obtain ⟨n, hn, heq⟩ := h
  exact ⟨n, hlm hn, heq⟩

theorem Submitted.append {l : List ScoreEntry} {content : JsString} (h : Submitted l content)
    (m : List ScoreEntry) : Submitted (l ++ m) content :=
  h.mono (List.subset_append_left l m)

theorem calling_of_reacts {customData : Quiz.CustomData} {app : System} {id : Nat}
    {q r : Quiz.Instance} {e : Quiz.Event} {fx : List Effect}
    (hid : app.instances[id]? = some (.quiz q)) (hr : Quiz.Reacts customData q e r fx)
    {content : JsString} (hc : .calling content ∈ r.writes) :
    .calling content ∈ q.writes ∨ Submitted (scoreEntries customData app (.quiz id e)) content := by
  have hreact := (Quiz.react_iff customData q e r fx).mpr hr
  cases hr with
  | submit _ _ _ hlast =>
    rcases List.mem_append.mp hc with hc | hc
    · exact .inl hc
    · cases List.mem_singleton.mp hc
      refine .inr ⟨_, ?_, rfl⟩
      simp [scoreEntries, hid, hreact, hlast]
  | settle =>
    rcases List.mem_or_eq_of_mem_set hc with hc | hc
    · exact .inl hc
    · cases hc
  | resume => exact .inl (List.mem_of_mem_eraseIdx hc)
  | _ => exact .inl hc

theorem writes_of_reacts {customData : Quiz.CustomData} {q r : Quiz.Instance} {e : Quiz.Event}
    {fx : List Effect} (hr : Quiz.Reacts customData q e r fx) (he : ∀ i, e ≠ .resume i)
    (hnil : r.writes = []) : q.writes = [] := by
  cases hr with
  | submit => simp at hnil
  | settle => simpa using hnil
  | resume => exact absurd rfl (he _)
  | _ => exact hnil

theorem Displays.fresh (P : JsString → Prop) : Displays P {} where
  shown h := by cases h
  read _ h := by cases h

theorem Displays.reacts {P : JsString → Prop} {app : System} {h r : Home.Instance} {e : Home.Event}
    {fx : List Effect} (hd : Displays P h) (hfile : ∀ content, app.file = some content → P content)
    (hhonest : honest app h e = true) (hr : Home.Reacts h e r fx) : Displays P r := by
  cases hr with
  | @edit f val _ =>
    cases val with
    | some v => exact ⟨hd.shown, hd.read⟩
    | none => exact hd
  | loadDone hload =>
    simp only [Home.Instance.setState, Home.State.load]
    split
    · split <;> exact ⟨hd.shown, hd.read⟩
    · exact ⟨hd.shown, hd.read⟩
  | settleExists => exact ⟨hd.shown, fun _ hread => by cases hread⟩
  | @settleRead reply _ =>
    refine ⟨hd.shown, ?_⟩
    intro fileData hread
    cases hread
    exact hfile fileData (by simpa [honest] using hhonest)
  | checked =>
    refine ⟨hd.shown, ?_⟩
    intro fileData hread
    simp only at hread
    split at hread <;> cases hread
  | readDone hread =>
    refine ⟨?_, fun _ hnone => by cases hnone⟩
    simp only [Home.Instance.setState]
    split
    · exact fun _ => hd.read _ hread
    · exact hd.shown
  | readFailed => exact ⟨hd.shown, fun _ hnone => by cases hnone⟩
  | _ => exact ⟨hd.shown, hd.read⟩

theorem NoWrites.of_put_home {app : System} {id : Nat} {h r : Home.Instance}
    (hid : app.instances[id]? = some (.home h)) (hn : NoWrites (app.put id (.home r))) :
    NoWrites app :=
  fun q hq => hn q ((System.mem_put_iff hid (by simp) (by simp)).mpr hq)

theorem NoWrites.of_put_quiz {app : System} {id : Nat} {q r : Quiz.Instance}
    (hid : app.instances[id]? = some (.quiz q)) (hwrites : r.writes = [] → q.writes = [])
    (hn : NoWrites (app.put id (.quiz r))) : NoWrites app := by
  intro p hp
  by_cases hpq : p = q
  · subst hpq
    exact hwrites (hn r (System.mem_put_self hid))
  · exact hn p (System.mem_put_of_ne hid hp (by simpa using hpq))

namespace Tracked

variable {app : System} {l : List ScoreEntry} {id : Nat}

theorem boot {storage : Storage} {file : Option JsString}
    (h : ∀ content, file = some content → .stored ∈ l ∧ Submitted l content) :
    Tracked (boot storage file) l where
  calling q content hq := by simp [App.boot] at hq
  file := h
  current _ h hh := by
    simp only [App.boot, List.getElem?_cons_zero, Option.some.injEq, Instance.home.injEq] at hh
    subst hh
    exact .fresh _

theorem append (h : Tracked app l) (m : List ScoreEntry) : Tracked app (l ++ m) where
  calling q content hq hc := (h.calling q content hq hc).append m
  file content hc := ⟨List.mem_append_left m (h.file content hc).1, (h.file content hc).2.append m⟩
  current := h.current

theorem put_home (h : Tracked app l) {k r : Home.Instance}
    (hid : app.instances[id]? = some (.home k))
    (hr : Displays (app.file = some ·) k → Displays (app.file = some ·) r) :
    Tracked (app.put id (.home r)) l where
  calling q content hq hc :=
    h.calling q content ((System.mem_put_iff hid (by simp) (by simp)).mp hq) hc
  file := h.file
  current hn g hg := by
    have hcurrent := h.current (hn.of_put_home hid)
    rcases System.getElem?_put (k := app.current) hid hg with ⟨rfl, heq⟩ | ⟨-, hg⟩
    · cases heq
      exact hr (hcurrent k hid)
    · exact hcurrent g hg

theorem push_quiz (h : Tracked app l) (s : Quiz.State) :
    Tracked (app.push (.quiz { state := s })) l where
  calling q content hmem hc := by
    rcases System.mem_push hmem with hmem | hmem
    · exact h.calling q content hmem hc
    · cases hmem
      cases hc
  file := h.file
  current _ k hk := by
    rw [System.push_current] at hk
    cases hk

theorem calling_put {customData : Quiz.CustomData} {q r : Quiz.Instance} {e : Quiz.Event}
    {fx : List Effect} (h : Tracked app l) (hid : app.instances[id]? = some (.quiz q))
    (hr : Quiz.Reacts customData q e r fx) {p : Quiz.Instance} {content : JsString}
    (hp : .quiz p ∈ (app.put id (.quiz r)).instances) (hc : .calling content ∈ p.writes) :
    Submitted (l ++ scoreEntries customData app (.quiz id e)) content := by
  rcases System.mem_put hp with hp | hp
  · exact (h.calling p content hp hc).append _
  · cases hp
    rcases calling_of_reacts hid hr hc with hc | hc
    · exact (h.calling q content (List.mem_of_getElem? hid) hc).append _
    · exact hc.mono (List.subset_append_right l _)

theorem quiz {customData : Quiz.CustomData} {q r : Quiz.Instance} {e : Quiz.Event}
    {fx : List Effect} (h : Tracked app l) (hid : app.instances[id]? = some (.quiz q))
    (hr : Quiz.Reacts customData q e r fx) (he : ∀ i, e ≠ .resume i) :
    Tracked (app.put id (.quiz r)) (l ++ scoreEntries customData app (.quiz id e)) where
  calling _ _ := h.calling_put hid hr
  file := (h.append _).file
  current hn k hk := by
    have hcurrent := h.current (hn.of_put_quiz hid (writes_of_reacts hr he))
    rcases System.getElem?_put (k := app.current) hid hk with ⟨-, heq⟩ | ⟨-, hk⟩
    · cases heq
    · exact hcurrent k hk

theorem storeFile {customData : Quiz.CustomData} {q r : Quiz.Instance} {i : Nat}
    {content : JsString} (h : Tracked app l) (hid : app.instances[id]? = some (.quiz q))
    (hr : Quiz.Reacts customData q (.settle i true) r [.storeFile content]) :
    Tracked { app.put id (.quiz r) with file := some content } (l ++ [.stored]) := by
  have hput := h.quiz hid hr (by simp)
  refine ⟨hput.calling, ?_, ?_⟩
  · intro content' hcontent
    cases hcontent
    refine ⟨by simp, ?_⟩
    generalize hfx : [Effect.storeFile content] = fx at hr
    cases hr with
    | settle hi =>
      cases hfx
      exact (h.calling q content (List.mem_of_getElem? hid) (List.mem_of_getElem? hi)).append _
  · intro hn
    have hnil : r.writes = [] := hn r (System.mem_put_self hid)
    cases hr with
    | settle hi =>
      have hq : q.writes = [] := by simpa using hnil
      simp [hq] at hi

theorem leave {customData : Quiz.CustomData} {q r : Quiz.Instance} {i : Nat} {fx : List Effect}
    (h : Tracked app l) (hid : app.instances[id]? = some (.quiz q))
    (hr : Quiz.Reacts customData q (.resume i) r fx) :
    Tracked ((app.put id (.quiz r)).push (.home {})) (l ++ []) where
  calling p content hp hc := by
    rcases System.mem_push hp with hp | hp
    · exact h.calling_put hid hr hp hc
    · cases hp
  file := (h.append _).file
  current _ k hk := by
    rw [System.push_current] at hk
    cases hk
    exact .fresh _

theorem step {customData : Quiz.CustomData} {app' : System} {e : Event} (h : Tracked app l)
    (hst : Steps customData app e app') : Tracked app' (l ++ scoreEntries customData app e) := by
  cases hst with
  | home hid hhonest _ hr _ =>
    exact (h.append _).put_home hid fun hd => hd.reacts (fun _ hfile => hfile) hhonest hr
  | storeItem hid hr =>
    have hput := (h.append []).put_home hid fun hd =>
      hd.reacts (e := .settleSave _ true) (fun _ hfile => hfile) rfl hr
    exact ⟨hput.calling, hput.file, hput.current⟩
  | @login _ _ _ s hid hr =>
    have hput := (h.append []).put_home hid fun hd =>
      hd.reacts (e := .login) (fun _ hfile => hfile) rfl hr
    have hpush := hput.push_quiz s
    exact ⟨hpush.calling, hpush.file, hpush.current⟩
  | quiz hid hr hfx => exact h.quiz hid hr (ne_resume_of_reacts hr hfx)
  | storeFile hid hr => exact h.storeFile hid hr
  | leave hid hr => exact h.leave hid hr
  | unmount hid _ hr =>
    have hput := h.quiz hid hr (by simp)
    exact ⟨hput.calling, hput.file, hput.current⟩
  | back => exact h.append _
  | kill => exact .boot (h.append _).file

end Tracked

/-- Whenever a `HomeScreen` is current and the file is at rest, the score on display is
the content of the file, which is the count of some submission; without a completed
write no score is on display. -/
theorem score_shown_is_stored (customData : Quiz.CustomData) {es : List Event} {app : System}
    {h : Home.Instance} (hrun : (machine customData).run freshInstall es = some app)
    (hcurrent : app.instances[app.current]? = some (.home h)) (hidle : FilesIdle app) :
    (h.state.scoreExists = true → app.file = some h.state.score ∧
      Submitted ((machine customData).log (scoreEntries customData) freshInstall es) h.state.score) ∧
    (.stored ∉ (machine customData).log (scoreEntries customData) freshInstall es →
      h.state.scoreExists = false) := by
  have htracked : Tracked app ((machine customData).log (scoreEntries customData) freshInstall es) :=
    Machine.run_invariant (.boot fun _ hnone => by cases hnone)
      (fun _ _ _ _ ht hst => ht.step (steps_of_step hst)) hrun
  have hdisplays := htracked.current hidle.1 h hcurrent
  refine ⟨?_, ?_⟩
  · intro hexists
    exact ⟨hdisplays.shown hexists, (htracked.file _ (hdisplays.shown hexists)).2⟩
  · intro hstored
    by_contra hexists
    have hfile := hdisplays.shown (by simpa using hexists)
    exact hstored (htracked.file _ hfile).1

def attempt (home quiz : Nat) : List Event :=
  onHome home (typeEvents ann) ++ onHome home [.login] ++ onQuiz quiz (Quiz.fullMarks.map .input)

def oneQuiz : List Event :=
  onHome 0 [.settleExists (.fulfilled false), .resumeScore] ++ attempt 0 1 ++
    onQuiz 1 [.settle 0 true, .resume 0] ++
    onHome 2 [.settleExists (.fulfilled true), .resumeScore, .settleRead (.fulfilled (numeral 4)),
      .resumeScore]

theorem oneQuiz_score_shown :
    ∃ app h, (machine Quiz.customData).run freshInstall oneQuiz = some app ∧
      app.instances[app.current]? = some (.home h) ∧ FilesIdle app ∧
      h.state.scoreExists = true ∧ h.state.score = numeral 4 ∧
      (h.state.scoreExists = true → app.file = some h.state.score ∧
        Submitted ((machine Quiz.customData).log (scoreEntries Quiz.customData) freshInstall oneQuiz)
          h.state.score) ∧
      (.stored ∉ (machine Quiz.customData).log (scoreEntries Quiz.customData) freshInstall oneQuiz →
        h.state.scoreExists = false) := by
  let home : Home.Instance :=
    { state := { score := numeral 4, scoreExists := true }, readScore := none }
  have hend : ((machine Quiz.customData).run freshInstall oneQuiz).map
      (fun app => (app.instances, app.current)) =
      some ([
        .home { state := { values := ann.some }, saves := [Home.setData { values := ann.some }],
                readScore := none },
        .quiz { state := ⟨4, 1, true, 4, 4, true⟩ },
        .home home], 2) := by
    decide +kernel
  obtain ⟨app, hrun, happ⟩ := Option.map_eq_some_iff.mp hend
  obtain ⟨hinstances, hcurrent⟩ := Prod.mk.inj happ
  have hhome : app.instances[app.current]? = some (.home home) := by
    rw [hinstances, hcurrent]
    rfl
  have hidle : FilesIdle app := by
    refine ⟨?_, ?_⟩
    · intro q hq
      rw [hinstances] at hq
      simp at hq
      rw [hq]
    · intro h hh
      rw [hinstances] at hh
      simp at hh
      rcases hh with rfl | rfl <;> rfl
  exact ⟨app, home, hrun, hhome, hidle, rfl, rfl,
    score_shown_is_stored Quiz.customData hrun hhome hidle⟩

end QuizApp.App
