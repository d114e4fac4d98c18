import QuizApp.Quiz.Scores
import QuizApp.App.Sessions
import QuizApp.App.Score

namespace QuizApp.App

open Js
open Home (ann)
open Quiz (Bank IsMark Marked)

def ScoredInstance {N : Nat} (b : Bank N) : Instance → Prop
  | .home h => Displays (IsMark b) h
  | .quiz q => Marked b q

structure Scored {N : Nat} (b : Bank N) (app : System) : Prop where
  instances : ∀ i ∈ app.instances, ScoredInstance b i
  file : ∀ content, app.file = some content → IsMark b content

section Invariant

variable {N : Nat} {b : Bank N} {app app' : System}

theorem Scored.boot {storage : Storage} {file : Option JsString}
    (hfile : ∀ content, file = some content → IsMark b content) : Scored b (boot storage file) where
  instances i hi := by
    cases List.mem_singleton.mp hi
    exact Displays.fresh _
  file := hfile

theorem Scored.step {e : Event} (hs : Scored b app) (hst : Steps b.customData app e app') :
    Scored b app' := by
  refine ⟨?_, ?_⟩
  · apply forall_instances_step hst (Displays.fresh _) (Marked.fresh b) ?_ ?_ hs.instances
    · intro _ _ _ _ _ _ _ hhonest hr hh
      exact Displays.reacts hh hs.file hhonest hr
    · intro _ _ _ _ _ _ _ hr hq
      exact Marked.reacts hq hr
  · cases hst with
    | @storeFile id i q r content hid hr =>
      intro content' hcontent
      cases hcontent
      generalize hfx : [Effect.storeFile content] = fx at hr
      cases hr with
      | settle hi =>
        cases hfx
        have hq : Marked b q := hs.instances _ (List.mem_of_getElem? hid)
        exact hq.calling content (List.mem_of_getElem? hi)
    | _ => exact hs.file

theorem scored_of_run {es : List Event}
    (hrun : (machine b.customData).run freshInstall es = some app) : Scored b app :=
  @Machine.run_invariant _ _ Unit (machine b.customData) Machine.unobserved
    (fun app _ => Scored b app) _ (.boot fun _ hnone => by cases hnone)
    (fun _ _ _ _ hs hst => hs.step (steps_of_step hst)) _ _ hrun

end Invariant

section Continuation

variable {N : Nat} {b : Bank N} {app : System} {id : Nat}

def showScore (quiz home m : Nat) (content : JsString) : List Event :=
  onQuiz quiz [.settle m true, .resume m] ++
    onHome home [.settleExists (.fulfilled true), .resumeScore, .settleRead (.fulfilled content),
      .resumeScore]

theorem step_store {customData : Quiz.CustomData} {q : Quiz.Instance} {m : Nat} {content : JsString}
    (hid : app.instances[id]? = some (.quiz q)) (hm : q.writes[m]? = some (.calling content)) :
    step customData app (.quiz id (.settle m true)) =
      some { app.put id (.quiz { q with writes := q.writes.set m (.settled true) }) with
        file := some content } := by
  simp only [step, hid, Quiz.react, hm]
  rfl

theorem step_leave {customData : Quiz.CustomData} {q : Quiz.Instance} {m : Nat} {ok : Bool}
    (hid : app.instances[id]? = some (.quiz q)) (hm : q.writes[m]? = some (.settled ok)) :
    step customData app (.quiz id (.resume m)) =
      some ((app.put id (.quiz { q with writes := q.writes.eraseIdx m })).push (.home {})) := by
  simp only [step, hid, Quiz.react, hm]
  cases ok <;> rfl

theorem run_readScore {customData : Quiz.CustomData} {content : JsString}
    (hid : app.instances[id]? = some (.home {})) (hfile : app.file = some content) :
    (machine customData).run app (onHome id [.settleExists (.fulfilled true), .resumeScore,
        .settleRead (.fulfilled content), .resumeScore]) =
      some (app.put id (.home { state := { score := content, scoreExists := true },
                                readScore := none })) := by
  have hgo : ∀ {h r : Home.Instance} {e : Home.Event}, honest app h e = true → e ≠ .unmount →
      Home.Reacts h e r [] → (machine customData).step (app.put id (.home h)) (.home id e) =
        some (app.put id (.home r)) := by
    intro h r e hhonest he hr
    rw [← System.put_put app id (.home h) (.home r)]
    exact step_home_quiet (System.put_self hid) hhonest (fun heq => absurd heq he) hr
  let checked : Home.Instance := { readScore := some (.checkFileSettled (.fulfilled true)) }
  let reading : Home.Instance := { readScore := some .readFile }
  let read : Home.Instance := { readScore := some (.readFileSettled (.fulfilled content)) }
  have hexists : Home.Reacts {} (.settleExists (.fulfilled true)) checked [] :=
    Home.reacts_of_react rfl
  have hchecked : Home.Reacts checked .resumeScore reading [] := Home.reacts_of_react rfl
  have hread : Home.Reacts reading (.settleRead (.fulfilled content)) read [] :=
    Home.reacts_of_react rfl
  have hshown : Home.Reacts read .resumeScore _ [] := .readDone rfl
  rw [← System.put_eq_self hid]
  simp only [onHome, List.map_cons, List.map_nil, Machine.run, Option.bind_some,
    hgo (by simp [honest, hfile]) (by simp) hexists, hgo rfl (by simp) hchecked,
    hgo (by simp [honest, hfile]) (by simp) hread, hgo rfl (by simp) hshown, System.put_put]
  rfl

theorem run_showScore (customData : Quiz.CustomData) {q : Quiz.Instance} {m : Nat}
    {content : JsString} (hid : app.instances[id]? = some (.quiz q))
    (hm : q.writes[m]? = some (.calling content)) :
    ∃ app' h, (machine customData).run app (showScore id app.instances.length m content) =
        some app' ∧
      app'.instances[app'.current]? = some (.home h) ∧ h.mounted = true ∧
      app'.file = some content ∧ h.state.scoreExists = true ∧ h.state.score = content := by
  obtain ⟨hlt, -⟩ := List.getElem?_eq_some_iff.mp hm
  let settled : Quiz.Instance := { q with writes := q.writes.set m (.settled true) }
  let stored : System := { app.put id (.quiz settled) with file := some content }
  have hstore : (machine customData).step app (.quiz id (.settle m true)) = some stored :=
    step_store hid hm
  have hsettled : settled.writes[m]? = some (.settled true) := by simp [settled, hlt]
  let left : System :=
    (stored.put id (.quiz { settled with writes := settled.writes.eraseIdx m })).push (.home {})
  have hleave : (machine customData).step stored (.quiz id (.resume m)) = some left :=
    step_leave (System.put_self hid) hsettled
  have hcurrent : left.current = app.instances.length := by
    simp [left, stored, System.push, System.put]
  have hhome : left.instances[left.current]? = some (.home {}) := System.push_current _ _
  let shown : Home.Instance :=
    { state := { score := content, scoreExists := true }, readScore := none }
  have hread : (machine customData).run left (onHome left.current _) =
      some (left.put left.current (.home shown)) := run_readScore hhome rfl
  refine ⟨left.put left.current (.home shown), shown, ?_, System.put_self hhome, rfl, rfl, rfl, rfl⟩
  rw [showScore, Machine.run_append, ← hcurrent]
  simp only [onQuiz, List.map_cons, List.map_nil, Machine.run, hstore, hleave, Option.bind_some]
  exact hread

theorem exists_opened {N : Nat} (b : Bank N) {h : Home.Instance}
    (hid : app.instances[id]? = some (.home h)) (hm : h.mounted = true) :
    ∃ app', (machine b.customData).run app (onHome id (Home.typeEvents ann ++ [.login])) =
        some app' ∧
      app'.instances[app.instances.length]? = some (.quiz (.fresh b.customData)) := by
  let typed : Home.Instance :=
    { h with state := { h.state with values := ann.some, errors := .replicate false } }
  have htyped : (machine b.customData).run app (onHome id (Home.typeEvents ann)) =
      some (app.put id (.home typed)) := run_typeEvents hid hm ann
  let saved : Home.Instance := { typed with saves := h.saves ++ [Home.setData typed.state] }
  let opened : System :=
    { ((app.put id (.home typed)).put id (.home saved)).push (.quiz (.fresh b.customData)) with
      handlers := Quiz.componentDidMount app.handlers }
  have hlogin : (machine b.customData).step (app.put id (.home typed)) (.home id .login) =
      some opened := step_login (System.put_self hid) hm ann_valid b.mount_eq
  refine ⟨opened, ?_, by simp [opened, System.push, System.put]⟩
  rw [onHome, List.map_append]
  exact (Machine.run_snoc _ _ _ _ _).mpr ⟨_, htyped, hlogin⟩

theorem exists_display {N : Nat} (b : Bank N) {app : System} {h : Home.Instance}
    (hid : app.instances[id]? = some (.home h)) (hm : h.mounted = true) {content : JsString}
    (hmark : IsMark b content) :
    ∃ es app' h, .kill ∉ es ∧ (machine b.customData).run app es = some app' ∧
      app'.instances[app'.current]? = some (.home h) ∧ h.mounted = true ∧
      app'.file = some content ∧ h.state.scoreExists = true ∧ h.state.score = content := by
  obtain ⟨k, n, hscores, rfl⟩ := hmark
  obtain ⟨picks, hlength, hmem, rfl⟩ := (b.customData.scores_iff N k n).mp hscores
  obtain ⟨q, t, calls, hrun, -, -, -, hwrites⟩ := Quiz.exists_picked b picks hmem
  have hcalling : q.writes[k]? = some (.calling (numeral (b.customData.marks N picks))) := by
    have hk : (b.customData.submissions N picks)[k]? =
        some (numeral (b.customData.marks N picks)) := by
      rw [Quiz.getElem?_submissions, ← hlength, List.take_length]
      exact ⟨Nat.le_refl _, rfl⟩
    rw [hwrites, List.getElem?_map, hk]
    rfl
  obtain ⟨opened, hopen, hquiz⟩ := exists_opened b hid hm
  let answered : System := opened.put app.instances.length (.quiz q)
  have hinputs : (machine b.customData).run opened (onQuiz app.instances.length
      ((picks.flatMap Quiz.answer).map .input)) = some answered := run_inputs hquiz hrun
  obtain ⟨app', h', hshow, hshown⟩ :=
    run_showScore b.customData (System.put_self hquiz : answered.instances[_]? = _) hcalling
  refine ⟨onHome id (Home.typeEvents ann ++ [.login]) ++
    onQuiz app.instances.length ((picks.flatMap Quiz.answer).map .input) ++
    showScore app.instances.length answered.instances.length k
      (numeral (b.customData.marks N picks)), app', h', ?_, ?_, hshown⟩
  · simp [onHome, onQuiz, showScore]
  · rw [Machine.run_append, Machine.run_append, hopen, Option.bind_some, hinputs, Option.bind_some,
      hshow]

end Continuation

/-- In every state of every run, the scores shown and stored are scores of submissions, and
each of these can still come to be shown and stored. -/
theorem displayed_scores {N : Nat} (b : Bank N) {es : List Event} {app : System}
    (hrun : (machine b.customData).run freshInstall es = some app) :
    (∀ h, .home h ∈ app.instances → h.state.scoreExists = true → IsMark b h.state.score) ∧
    (∀ content, app.file = some content → IsMark b content) ∧
    ∀ content, IsMark b content → ∃ fs app' h, (machine b.customData).run app fs = some app' ∧
      app'.instances[app'.current]? = some (.home h) ∧ h.mounted = true ∧
      app'.file = some content ∧ h.state.scoreExists = true ∧ h.state.score = content := by
  have hscored := scored_of_run hrun
  refine ⟨?_, hscored.file, fun content hmark => ?_⟩
  · intro h hh
    exact (hscored.instances _ hh).shown
  · have hboot : (boot app.storage app.file).instances[0]? = some (.home {}) := rfl
    obtain ⟨fs, app', h, -, hfs, hshown⟩ := exists_display b hboot rfl hmark
    exact ⟨.kill :: fs, app', h, hfs, hshown⟩

theorem isMark_numeral (n : Nat) : IsMark Quiz.bank (numeral n) := by
  have hleast : Quiz.customData.leastScore 4 = 0 := by decide
  have hall : Quiz.optionKeys.all (Quiz.customData.identical 4) = false := by decide
  have hany : Quiz.optionKeys.any (Quiz.customData.identical 4) = true := by decide
  refine ⟨n, n, ⟨?_, ?_⟩, rfl⟩
  · simp [Quiz.bank, hleast, hall]
  · simp [Quiz.bank, hany]

theorem oneQuiz_displayed : ∃ app, (machine Quiz.customData).run freshInstall oneQuiz = some app ∧
    ∀ n, ∃ fs app' h, (machine Quiz.customData).run app fs = some app' ∧
      app'.instances[app'.current]? = some (.home h) ∧ h.mounted = true ∧
      app'.file = some (numeral n) ∧ h.state.scoreExists = true ∧ h.state.score = numeral n := by
  have hend : ((machine Quiz.customData).run freshInstall oneQuiz).isSome := by decide
  obtain ⟨app, hrun⟩ := Option.isSome_iff_exists.mp hend
  obtain ⟨-, -, hreach⟩ := displayed_scores Quiz.bank hrun
  exact ⟨app, hrun, fun n => hreach (numeral n) (isMark_numeral n)⟩

end QuizApp.App
