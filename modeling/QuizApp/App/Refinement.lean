import QuizApp.App.Design
import QuizApp.App.Sessions

namespace QuizApp.App

open Js
open Home (Field Profile ann)
open Quiz (Bank Grader grader)

theorem Mirrored.of_getLast {customData : Quiz.CustomData} {app : System}
    {l m : List (Profile (Option JsString))} (h : Mirrored customData app l)
    (hlast : m.getLast? = l.getLast?) : Mirrored customData app m where
  homes g hg := by
    rw [hlast]
    exact h.homes g hg
  phase := h.phase
  stored := by
    rw [hlast]
    exact h.stored
  accepted := by
    rw [hlast]
    exact h.accepted

@[simp] theorem getLast?_toList {α : Type} (o : Option α) : o.toList.getLast? = o := by
  cases o <;> rfl

section Score

variable {score : Option Nat} {file : Option JsString} {h r : Home.Instance}

theorem ShowsScore.congr (hh : ShowsScore score file h) (hread : r.readScore = h.readScore)
    (hexists : r.state.scoreExists = h.state.scoreExists) (hscore : r.state.score = h.state.score) :
    ShowsScore score file r := by
  simp only [ShowsScore, hread, hexists, hscore] at hh ⊢
  exact hh

theorem ShowsScore.setState {s : Home.State} (hh : ShowsScore score file h)
    (hexists : s.scoreExists = h.state.scoreExists) (hscore : s.score = h.state.score)
    (load : Option Home.Load) : ShowsScore score file { h.setState s with load } := by
  refine hh.congr (by simp) ?_ ?_
  · simp only [Home.Instance.setState]
    split
    · exact hexists
    · rfl
  · simp only [Home.Instance.setState]
    split
    · exact hscore
    · rfl

theorem ShowsScore.checked {reply : Reply Bool} (hh : ShowsScore score file h)
    (hfile : file = score.map numeral) (hread : h.readScore = some (.checkFileSettled reply)) :
    ShowsScore score file
      { h with readScore := if reply = .fulfilled true then some .readFile else none } := by
  simp only [ShowsScore, hread] at hh
  obtain ⟨⟨hexists, hscore⟩, rfl⟩ := hh
  cases score with
  | none => simp [ShowsScore, hfile, hexists, hscore]
  | some n => simp [ShowsScore, hfile, hexists, hscore]

theorem ShowsScore.readDone {fileData : JsString} (hh : ShowsScore score file h)
    (hfile : file = score.map numeral) (hmounted : h.mounted = true)
    (hread : h.readScore = some (.readFileSettled (.fulfilled fileData))) :
    ShowsScore score file
      { h.setState { h.state with scoreExists := true, score := fileData } with readScore := none } := by
  simp only [ShowsScore, hread, Reply.fulfilled.injEq] at hh
  obtain ⟨-, content, hcontent, rfl⟩ := hh
  cases score with
  | none =>
    rw [hfile] at hcontent
    cases hcontent
  | some n =>
    rw [hfile] at hcontent
    cases hcontent
    simp [ShowsScore, Home.Instance.setState, hmounted]

end Score

section Home

variable {N : Nat} {b : Bank N} {app : System} {d : Design} {h r : Home.Instance}

theorem Stage.congr (hs : Stage b app.file d (.home h)) (hstate : r.state = h.state)
    (hload : r.load = h.load) (hread : r.readScore = h.readScore) (hmounted : r.mounted = h.mounted) :
    Stage b app.file d (.home r) := by
  cases hs with
  | loading hpage hfile hm hl hvalues hscore =>
    exact .loading hpage hfile (hmounted.trans hm) (hload ▸ hl) (hstate ▸ hvalues)
      (hscore.congr hread (by rw [hstate]) (by rw [hstate]))
  | form hpage hfile hm hl hvalues herrors hscore =>
    exact .form hpage hfile (hmounted.trans hm) (hload.trans hl) (hstate ▸ hvalues)
      (hstate ▸ herrors) (hscore.congr hread (by rw [hstate]) (by rw [hstate]))

theorem Stage.score (hs : Stage b app.file d (.home h))
    (hvalues : r.state.values = h.state.values) (herrors : r.state.errors = h.state.errors)
    (hload : r.load = h.load) (hmounted : r.mounted = h.mounted)
    (hscore : app.file = d.score.map numeral → h.mounted = true → ShowsScore d.score app.file h →
      ShowsScore d.score app.file r) : Stage b app.file d (.home r) := by
  cases hs with
  | loading hpage hfile hm hl hv hsc =>
    exact .loading hpage hfile (hmounted.trans hm) (hload ▸ hl) (hvalues.trans hv) (hscore hfile hm hsc)
  | form hpage hfile hm hl hv he hsc =>
    exact .form hpage hfile (hmounted.trans hm) (hload.trans hl) (hvalues.trans hv)
      (herrors.trans he) (hscore hfile hm hsc)

theorem Stage.load (hs : Stage b app.file d (.home h)) {l : Home.Load} (hl : h.load = some l)
    (l' : Home.Load) : Stage b app.file d (.home { h with load := some l' }) := by
  cases hs with
  | loading hpage hfile hm _ hv hsc => exact .loading hpage hfile hm (by simp) hv hsc
  | form _ _ _ hnone => simp [hnone] at hl

theorem Toward.mirrors (ht : Toward b app d) (hmem : .home h ∈ app.instances) :
    Home.Mirrors app.storage (d.profile.map Profile.some) h := by
  have hmirrors := ht.mirrored.homes h hmem
  rwa [getLast?_toList] at hmirrors

theorem Toward.loadDone (ht : Toward b app d) (hmem : .home h ∈ app.instances)
    (hs : Stage b app.file d (.home h)) {point : Home.GetData} {value : Option JsString}
    {read : Profile (Option JsString)} (hl : h.load = some (.settled point (.fulfilled value)))
    (hread : point.resume value = .inr read) :
    Stage b app.file d (.home { h.setState (h.state.load read) with load := none }) := by
  have hmirrors := ht.mirrors hmem
  obtain ⟨hreads, herrors⟩ := hmirrors.load _ hl
  cases hs with
  | form _ _ _ hnone => simp [hnone] at hl
  | loading hpage hfile hm _ hv hsc =>
    refine .form hpage hfile (by simpa using hm) rfl ?_ ?_ (hsc.setState ?_ ?_ none)
    · cases hprofile : d.profile with
      | none =>
        have hnone : ∀ f : Field, read.get f = none := fun f =>
          (hreads.read hread f).trans (ht.unsaved hprofile f)
        have hnot : ¬ Home.Found read := by
          rintro (h | h | h | h)
          · exact h (hnone .firstName)
          · exact h (hnone .lastName)
          · exact h (hnone .nickName)
          · exact h (hnone .age)
        have hstate : (h.setState (h.state.load read)).state = h.state := by
          simp [Home.Instance.setState, hm, Home.State.load, hnot]
        exact (congrArg Home.State.values hstate).trans hv
      | some p =>
        have hlast : (d.profile.map Profile.some).toList.getLast? = some p.some := by simp [hprofile]
        have hno := ht.saved (by simp [hpage, Design.home])
        rw [hmirrors.restore hm hl hread (ht.mirrored.stored hno _ hlast)
          (ht.mirrored.accepted _ hlast).1]
        rfl
    · simp only [Home.Instance.setState, hm, if_true, Home.State.load]
      split <;> exact herrors
    · simp only [Home.State.load]
      split <;> rfl
    · simp only [Home.State.load]
      split <;> rfl

theorem Toward.reacts (ht : Toward b app d) (hmem : .home h ∈ app.instances)
    (hs : Stage b app.file d (.home h)) {e : Home.Event} {fx : List Effect}
    (hr : Home.Reacts h e r fx) (he : e.isInput = false) (hunmount : e ≠ .unmount)
    (hhonest : honest app h e = true) (hfulfils : e.fails = false) :
    Stage b app.file d (.home r) := by
  have hmirrors := ht.mirrors hmem
  cases hr with
  | edit | rejected | accepted => cases he
  | storeItem => exact hs.congr rfl rfl rfl rfl
  | failItem => cases hfulfils
  | saveNext => exact hs.congr rfl rfl rfl rfl
  | saveDone => exact hs.congr rfl rfl rfl rfl
  | saveFailed => exact hs.congr rfl rfl rfl rfl
  | settleLoad hl => exact hs.load hl _
  | loadNext hl => exact hs.load hl _
  | loadDone hl hread => exact ht.loadDone hmem hs hl hread
  | loadFailed hl => exact absurd rfl ((hmirrors.load _ hl).1.succeeded _)
  | @settleExists reply hl =>
    refine hs.score rfl rfl rfl rfl fun _ _ hsc => ?_
    simp only [ShowsScore, hl] at hsc
    cases reply with
    | rejected => cases hfulfils
    | fulfilled value =>
      have hvalue : value = app.file.isSome := by simpa [honest] using hhonest
      exact ⟨hsc.1, by rw [hvalue]⟩
  | @settleRead reply hl =>
    refine hs.score rfl rfl rfl rfl fun _ _ hsc => ?_
    simp only [ShowsScore, hl] at hsc
    cases reply with
    | rejected => cases hfulfils
    | fulfilled value => exact ⟨hsc.1, value, by simpa [honest] using hhonest, rfl⟩
  | checked hl => exact hs.score rfl rfl rfl rfl fun hfile _ hsc => hsc.checked hfile hl
  | readDone hl =>
    refine hs.score (Home.Instance.setState_values _ rfl) (Home.Instance.setState_errors _ rfl)
      (by simp) (by simp) fun hfile hm hsc => hsc.readDone hfile hm hl
  | readFailed hl =>
    refine hs.score rfl rfl rfl rfl fun _ _ hsc => ?_
    simp [ShowsScore, hl] at hsc
  | unmount => exact absurd rfl hunmount

end Home

theorem Event.succeeds_of_fulfils {e : Event} (h : e.fulfils = true) : e.succeeds = true := by
  match e with
  | .home _ (.settleSave _ true) => rfl
  | .home _ (.settleSave _ false) => cases h
  | .home _ (.settleLoad (.fulfilled _)) => rfl
  | .home _ (.settleLoad .rejected) => cases h
  | .home _ (.edit _ _) | .home _ .login | .home _ (.resumeSave _) | .home _ .resumeLoad
  | .home _ (.settleExists _) | .home _ (.settleRead _) | .home _ .resumeScore | .home _ .unmount
  | .quiz _ _ | .back | .kill => rfl

theorem Event.not_background_of_input {e : Event} (h : e.isInput = true) :
    e.isBackground = false := by
  cases e with
  | home id e => simpa [Event.isBackground, Event.isInput] using h
  | quiz id e =>
    cases e with
    | input i => rfl
    | _ => cases h
  | back => rfl
  | kill => rfl

namespace Toward

variable {N : Nat} {b : Bank N} {app app' : System} {d : Design} {id : Nat}

theorem boot {storage : Storage} {file : Option JsString} (hpage : d.page = d.home)
    (hstorage : ∀ f : Field, storage f.key = d.profile.map (·.get f))
    (hfile : file = d.score.map numeral)
    (hvalid : ∀ p, d.profile = some p → p.faults.hasFault = false) :
    Toward b (boot storage file) d where
  mirrored := by
    have hsome : ∀ q, (d.profile.map Profile.some).toList.getLast? = some q →
        ∃ p, d.profile = some p ∧ p.some = q := by
      intro q hq
      rw [getLast?_toList] at hq
      exact Option.map_eq_some_iff.mp hq
    refine .boot file ?_ ?_
    · intro q hq f
      obtain ⟨p, hp, rfl⟩ := hsome q hq
      rw [hstorage f, hp]
      simp
    · intro q hq
      obtain ⟨p, hp, rfl⟩ := hsome q hq
      refine ⟨fun f => ?_, _, b.mount_eq⟩
      have hf := Profile.hasFault_eq_false.mp (hvalid p hp) f
      rw [Profile.get_some, Field.check_eq_fault, ← Profile.get_faults, hf]
  unsaved hnone f := by
    change storage f.key = none
    rw [hstorage f, hnone]
    rfl
  saved _ := .boot storage file
  current := ⟨.home {}, rfl, .loading hpage hfile rfl (by simp) rfl ⟨⟨rfl, rfl⟩, trivial⟩⟩
  homes k h hk hne := by
    simp only [App.boot] at hk hne
    rw [List.getElem?_eq_none (by simp; omega)] at hk
    cases hk
  quizzes k q hk _ := by
    have hmem := List.mem_of_getElem? hk
    simp [App.boot] at hmem

theorem valid (ht : Toward b app d) {p : Profile JsString} (hp : d.profile = some p) :
    p.faults.hasFault = false := by
  have hlast : (d.profile.map Profile.some).toList.getLast? = some p.some := by simp [hp]
  apply Profile.hasFault_eq_false.mpr
  intro f
  have hf := (ht.mirrored.accepted _ hlast).1 f
  rw [Profile.get_some, Field.check_eq_fault] at hf
  simpa using hf

theorem storage (ht : Toward b app d) (hno : NoSaves app) (f : Field) :
    app.storage f.key = d.profile.map (·.get f) := by
  cases hp : d.profile with
  | none => exact ht.unsaved hp f
  | some p =>
    have hlast : (d.profile.map Profile.some).toList.getLast? = some p.some := by simp [hp]
    rw [ht.mirrored.stored hno _ hlast f]
    simp

theorem put_home (ht : Toward b app d) {h r : Home.Instance}
    (hid : app.instances[id]? = some (.home h))
    (hinstances : app'.instances = (app.put id (.home r)).instances)
    (hcurrent : app'.current = app.current) (hfile : app'.file = app.file)
    (hmirrored : Mirrored b.customData app' (d.profile.map Profile.some).toList)
    (hunsaved : d.profile = none → ∀ f : Field, app'.storage f.key = none)
    (hsaves : h.saves = [] → r.saves = [])
    (hidle : h.load = none ∧ h.readScore = none → r.load = none ∧ r.readScore = none)
    (hstage : id = app.current → Stage b app.file d (.home h) → Stage b app.file d (.home r)) :
    Toward b app' d where
  mirrored := hmirrored
  unsaved := hunsaved
  saved hpage g hg := by
    rw [hinstances] at hg
    exact System.forall_home_put (ht.saved hpage)
      (hsaves (ht.saved hpage h (List.mem_of_getElem? hid))) g hg
  current := by
    rw [hinstances, hcurrent, hfile]
    obtain ⟨i, hi, hs⟩ := ht.current
    by_cases heq : id = app.current
    · cases (heq ▸ hid).symm.trans hi
      exact ⟨.home r, System.current_put hid heq, hstage heq hs⟩
    · exact ⟨i, System.current_put_of_ne hi heq, hs⟩
  homes k g hk hne := by
    rw [hinstances] at hk
    rw [hcurrent] at hne
    rcases System.getElem?_put hid hk with ⟨rfl, heq⟩ | ⟨-, hk⟩
    · cases heq
      exact hidle (ht.homes k h hid hne)
    · exact ht.homes k g hk hne
  quizzes k q hk hne := by
    rw [hinstances] at hk
    rw [hcurrent] at hne
    rcases System.getElem?_put hid hk with ⟨-, heq⟩ | ⟨-, hk⟩
    · cases heq
    · exact ht.quizzes k q hk hne

theorem put_quiz (ht : Toward b app d) {q r : Quiz.Instance} {d' : Design}
    (hid : app.instances[id]? = some (.quiz q))
    (hinstances : app'.instances = (app.put id (.quiz r)).instances)
    (hcurrent : app'.current = app.current) (hstorage : app'.storage = app.storage)
    (hprofile : d'.profile = d.profile) (hsaves : (∀ g, d'.page ≠ .quiz g) → NoSaves app)
    (hwrites : id ≠ app.current → r.writes = q.writes)
    (hstage : ∀ i, app.instances[app.current]? = some i → Stage b app.file d i →
      Stage b app'.file d' (if id = app.current then .quiz r else i)) :
    Toward b app' d' where
  mirrored := by
    rw [hprofile]
    refine ht.mirrored.of_homes (fun h => ?_) hstorage
    rw [hinstances]
    exact System.home_mem_put_quiz hid h
  unsaved := by
    rw [hprofile, hstorage]
    exact ht.unsaved
  saved hpage h hmem := by
    rw [hinstances] at hmem
    exact hsaves hpage h ((System.home_mem_put_quiz hid h).mp hmem)
  current := by
    rw [hinstances, hcurrent]
    obtain ⟨i, hi, hs⟩ := ht.current
    have hs := hstage i hi hs
    by_cases heq : id = app.current
    · rw [if_pos heq] at hs
      exact ⟨.quiz r, System.current_put hid heq, hs⟩
    · rw [if_neg heq] at hs
      exact ⟨i, System.current_put_of_ne hi heq, hs⟩
  homes k g hk hne := by
    rw [hinstances] at hk
    rw [hcurrent] at hne
    rcases System.getElem?_put hid hk with ⟨-, heq⟩ | ⟨-, hk⟩
    · cases heq
    · exact ht.homes k g hk hne
  quizzes k p hk hne := by
    rw [hinstances] at hk
    rw [hcurrent] at hne
    rcases System.getElem?_put hid hk with ⟨rfl, heq⟩ | ⟨-, hk⟩
    · cases heq
      rw [hwrites hne]
      exact ht.quizzes k q hid hne
    · exact ht.quizzes k p hk hne

section Rest

variable (ht : Toward b app d) (hrest : AtRest app)
include ht hrest

theorem file_of_atRest : app.file = d.score.map numeral := by
  obtain ⟨i, hi, hs⟩ := ht.current
  cases hs with
  | loading _ hfile => exact hfile
  | form _ hfile => exact hfile
  | quiz _ hfile => exact hfile
  | writing _ _ hwrites => simp [hrest.writes _ _ hi] at hwrites
  | written _ hfile => exact hfile

theorem page_of_atRest :
    (∃ h form errors, app.instances[app.current]? = some (.home h) ∧ d.page = .home form errors ∧
      h.mounted = true ∧
      h.state = { values := form.some, score := (d.score.map numeral).getD [], errors,
                  scoreExists := d.score.isSome }) ∨
    ∃ q g, app.instances[app.current]? = some (.quiz q) ∧ d.page = .quiz g ∧ q.writes = [] ∧
      Quiz.Simulates b q g (List.range' 1 g.graded.length) := by
  obtain ⟨i, hi, hs⟩ := ht.current
  cases hs with
  | loading _ _ _ hl => exact absurd (hrest.load _ _ hi) hl
  | @form h form errors hpage _ hm _ hv he hsc =>
    refine .inl ⟨h, form, errors, hi, hpage, hm, ?_⟩
    simp only [ShowsScore, hrest.readScore _ _ hi] at hsc
    obtain ⟨⟨_, _, _, _⟩, _, _, _, _⟩ := h
    simp only at hv he hsc
    simp [hv, he, hsc]
  | @quiz q g hpage _ hwrites hsim => exact .inr ⟨q, g, hi, hpage, hwrites, hsim⟩
  | writing _ _ hwrites => simp [hrest.writes _ _ hi] at hwrites
  | written _ _ hwrites => simp [hrest.writes _ _ hi] at hwrites

theorem shows_of_atRest : Shows b app d where
  storage := ht.storage hrest.noSaves
  file := ht.file_of_atRest hrest
  home form errors hpage := by
    rcases ht.page_of_atRest hrest with ⟨h, _, _, hh, hpage', -, hstate⟩ | ⟨q, g, -, hpage', -⟩
    · cases hpage.symm.trans hpage'
      exact ⟨h, hh, hstate⟩
    · cases hpage.symm.trans hpage'
  quiz g hpage := by
    rcases ht.page_of_atRest hrest with ⟨h, _, _, -, hpage', -⟩ | ⟨q, g, hq, hpage', -, hsim⟩
    · cases hpage.symm.trans hpage'
    · cases hpage.symm.trans hpage'
      exact ⟨q, hq, hsim⟩

theorem home_of_mounted {h : Home.Instance} (hid : app.instances[id]? = some (.home h))
    (hm : h.mounted = true) :
    id = app.current ∧ ∃ form errors, d.page = .home form errors ∧
      h.state = { values := form.some, score := (d.score.map numeral).getD [], errors,
                  scoreExists := d.score.isSome } := by
  have hcurrent : id = app.current := by
    by_contra hne
    simp [hrest.home id h hid hne] at hm
  refine ⟨hcurrent, ?_⟩
  rcases ht.page_of_atRest hrest with ⟨g, form, errors, hg, hpage, -, hstate⟩ | ⟨q, g, hq, -⟩
  · cases (hcurrent ▸ hid).symm.trans hg
    exact ⟨form, errors, hpage, hstate⟩
  · cases (hcurrent ▸ hid).symm.trans hq

theorem quiz_of_mounted {q : Quiz.Instance} (hid : app.instances[id]? = some (.quiz q))
    (hm : q.mounted = true) :
    id = app.current ∧ ∃ g, d.page = .quiz g ∧ q.writes = [] ∧
      Quiz.Simulates b q g (List.range' 1 g.graded.length) := by
  have hcurrent : id = app.current := by
    by_contra hne
    simp [hrest.quiz id q hid hne] at hm
  refine ⟨hcurrent, ?_⟩
  rcases ht.page_of_atRest hrest with ⟨h, _, _, hh, -⟩ | ⟨p, g, hp, hpage, hwrites, hsim⟩
  · cases (hcurrent ▸ hid).symm.trans hh
  · cases (hcurrent ▸ hid).symm.trans hp
    exact ⟨g, hpage, hwrites, hsim⟩

end Rest

theorem write_of_mem (ht : Toward b app d) {q : Quiz.Instance} {i : Nat} {w : Quiz.Write}
    (hid : app.instances[id]? = some (.quiz q)) (hi : q.writes[i]? = some w) :
    id = app.current ∧ i = 0 ∧ q.writes = [w] ∧ d.page = d.home ∧
      ((∃ n, d.score = some n ∧ w = .calling (numeral n)) ∨
        app.file = d.score.map numeral ∧ w = .settled true) := by
  have hcurrent : id = app.current := by
    by_contra hne
    simp [ht.quizzes id q hid hne] at hi
  obtain ⟨j, hj, hs⟩ := ht.current
  cases (hcurrent ▸ hid).symm.trans hj
  have hone : ∀ w', q.writes = [w'] → i = 0 ∧ w' = w := by
    intro w' hwrites
    rw [hwrites, List.getElem?_singleton] at hi
    split at hi
    · exact ⟨‹_›, Option.some.inj hi⟩
    · cases hi
  cases hs with
  | quiz _ _ hwrites => simp [hwrites] at hi
  | writing hpage hscore hwrites =>
    obtain ⟨hzero, rfl⟩ := hone _ hwrites
    exact ⟨hcurrent, hzero, hwrites, hpage, .inl ⟨_, hscore, rfl⟩⟩
  | written hpage hfile hwrites =>
    obtain ⟨hzero, rfl⟩ := hone _ hwrites
    exact ⟨hcurrent, hzero, hwrites, hpage, .inr ⟨hfile, rfl⟩⟩

theorem saved_of_home (ht : Toward b app d) (hpage : d.page = d.home) : NoSaves app :=
  ht.saved (by simp [hpage, Design.home])

theorem sequential (ht : Toward b app d) {e : Event} (hp : Patient app e)
    (hst : Steps b.customData app e app') (l : List (Profile (Option JsString))) :
    Sequential app l e where
  input he := by
    have hrest := hp.waits (Event.not_background_of_input he) (by rintro rfl; cases he)
    exact ⟨hrest.noSaves, hrest.noLoads⟩
  leave id i he := by
    subst he
    have hleave : ∀ q r fx, app.instances[id]? = some (.quiz q) →
        Quiz.Reacts b.customData q (.resume i) r fx → NoSaves app := by
      intro q r fx hid hr
      cases hr with
      | resume hi => exact ht.saved_of_home (ht.write_of_mem hid hi).2.2.2.1
    cases hst with
    | quiz hid hr => exact hleave _ _ _ hid hr
    | leave hid hr => exact hleave _ _ _ hid hr
  kill he := by
    subst he
    exact (hp.waits rfl nofun).noSaves

theorem fill (ht : Toward b app d) (hrest : AtRest app) {h : Home.Instance}
    (hid : app.instances[id]? = some (.home h)) (hm : h.mounted = true) {s : Home.State}
    {form : Profile JsString} {errors : Profile Bool}
    (hs : s = { values := form.some, score := (d.score.map numeral).getD [], errors,
                scoreExists := d.score.isSome })
    (hmirrored : Mirrored b.customData (app.put id (.home { h with state := s }))
      (d.profile.map Profile.some).toList) :
    Toward b (app.put id (.home { h with state := s })) { d with page := .home form errors } := by
  obtain ⟨hcurrent, -⟩ := ht.home_of_mounted hrest hid hm
  have hload := hrest.load id h hid
  have hread := hrest.readScore id h hid
  refine ⟨hmirrored, ht.unsaved, ?_, ?_, ?_, ?_⟩
  · intro _
    exact System.forall_home_put hrest.noSaves (hrest.saves id h hid)
  · refine ⟨_, System.current_put hid hcurrent, .form rfl (ht.file_of_atRest hrest) hm hload ?_ ?_ ?_⟩
    · rw [hs]
    · rw [hs]
    · simp [ShowsScore, hread, hs]
  · intro k g hk hne
    rcases System.getElem?_put hid hk with ⟨rfl, heq⟩ | ⟨-, hk⟩
    · exact absurd hcurrent hne
    · exact ht.homes k g hk hne
  · intro k q hk hne
    rcases System.getElem?_put hid hk with ⟨-, heq⟩ | ⟨-, hk⟩
    · cases heq
    · exact ht.quizzes k q hk hne

theorem edit (ht : Toward b app d) (hrest : AtRest app) {h : Home.Instance} {f : Field}
    {val : Option JsString} (hid : app.instances[id]? = some (.home h)) (hm : h.mounted = true)
    (hmirrored : Mirrored b.customData
      (app.put id (.home { h with state := Home.inputHandler f h.state val }))
      (d.profile.map Profile.some).toList) :
    ∃ d', (design b).run d (Event.request (.home id (.edit f val))) = some d' ∧
      Toward b (app.put id (.home { h with state := Home.inputHandler f h.state val })) d' := by
  obtain ⟨hcurrent, form, errors, hpage, hstate⟩ := ht.home_of_mounted hrest hid hm
  cases val with
  | none =>
    have hd : d = { d with page := .home form errors } := by
      rw [← hpage]
    refine ⟨d, rfl, ?_⟩
    rw [hd]
    exact ht.fill hrest hid hm hstate hmirrored
  | some v =>
    refine ⟨{ d with page := .home (form.set f v) (errors.set f false) }, ?_, ?_⟩
    · simp [Event.request, Machine.run, design, Design.step, hpage]
    · refine ht.fill hrest hid hm ?_ hmirrored
      rw [hstate, Profile.some_set]
      rfl

theorem reject (ht : Toward b app d) (hrest : AtRest app) {h : Home.Instance}
    {faults : Profile Bool} (hid : app.instances[id]? = some (.home h)) (hm : h.mounted = true)
    (hf : ∀ f : Field, f.check (h.state.values.get f) = .ok (faults.get f))
    (hfault : faults.hasFault = true)
    (hmirrored : Mirrored b.customData
      (app.put id (.home { h with state := { h.state with errors := faults } }))
      (d.profile.map Profile.some).toList) :
    ∃ d', (design b).run d (Event.request (.home id .login)) = some d' ∧
      Toward b (app.put id (.home { h with state := { h.state with errors := faults } })) d' := by
  obtain ⟨hcurrent, form, errors, hpage, hstate⟩ := ht.home_of_mounted hrest hid hm
  have hfaults : faults = form.faults := by
    apply Profile.ext_get
    intro f
    have hcheck := hf f
    rw [hstate, Profile.get_some, Field.check_eq_fault] at hcheck
    rw [Profile.get_faults]
    exact (Except.ok.inj hcheck).symm
  subst hfaults
  refine ⟨{ d with page := .home form form.faults }, ?_, ?_⟩
  · simp [Event.request, Machine.run, design, Design.step, hpage, hfault]
  · refine ht.fill hrest hid hm ?_ hmirrored
    rw [hstate]

theorem login (ht : Toward b app d) (hrest : AtRest app) {h : Home.Instance} {s : Quiz.State}
    {handlers : List Quiz.Handler}
    (hid : app.instances[id]? = some (.home h)) (hm : h.mounted = true)
    (hvalid : ∀ f : Field, f.check (h.state.values.get f) = .ok false)
    (hs : Quiz.mount b.customData = .ok s)
    (hmirrored : Mirrored b.customData
      { (app.put id (.home { h with saves := h.saves ++ [Home.setData h.state] })).push
          (.quiz { state := s }) with handlers }
      ((d.profile.map Profile.some).toList ++ [h.state.values])) :
    ∃ d', (design b).run d (Event.request (.home id .login)) = some d' ∧
      Toward b { (app.put id (.home { h with saves := h.saves ++ [Home.setData h.state] })).push
        (.quiz { state := s }) with handlers } d' := by
  obtain ⟨hcurrent, form, errors, hpage, hstate⟩ := ht.home_of_mounted hrest hid hm
  have hvalues : h.state.values = form.some := by rw [hstate]
  have hfaults : form.faults.hasFault = false := by
    apply Profile.hasFault_eq_false.mpr
    intro f
    have hcheck := hvalid f
    rw [hvalues, Profile.get_some, Field.check_eq_fault] at hcheck
    rw [Profile.get_faults]
    exact Except.ok.inj hcheck
  refine ⟨{ d with profile := some form, page := .quiz {} }, ?_, ?_, nofun, ?_, ?_, ?_, ?_⟩
  · simp [Event.request, Machine.run, design, Design.step, hpage, hfaults]
  · exact hmirrored.of_getLast (by simp [hvalues])
  · intro hquiz
    exact absurd rfl (hquiz {})
  · refine ⟨_, System.push_current _ _, .quiz rfl (ht.file_of_atRest hrest) rfl ?_⟩
    rw [eq_fresh_of_mount hs]
    exact .fresh b
  · intro k g hk _
    rcases System.getElem?_push hk with hk | heq
    · rcases System.getElem?_put hid hk with ⟨rfl, heq⟩ | ⟨-, hk⟩
      · cases heq
        exact ⟨hrest.load k h hid, hrest.readScore k h hid⟩
      · exact ⟨hrest.load k g hk, hrest.readScore k g hk⟩
    · cases heq
  · intro k q hk _
    rcases System.getElem?_push hk with hk | heq
    · rcases System.getElem?_put hid hk with ⟨rfl, heq⟩ | ⟨-, hk⟩
      · cases heq
      · exact hrest.writes k q hk
    · cases heq
      rfl

theorem input (ht : Toward b app d) (hrest : AtRest app) {q r : Quiz.Instance} {i : Quiz.Input}
    {fx : List Effect} (hid : app.instances[id]? = some (.quiz q))
    (hr : Quiz.Reacts b.customData q (.input i) r fx) :
    ∃ d', (design b).run d (Event.request (.quiz id (.input i))) = some d' ∧
      Toward b (app.put id (.quiz r)) d' := by
  have hm : q.mounted = true := by cases hr <;> assumption
  obtain ⟨hcurrent, g, hpage, hwrites, hsim⟩ := ht.quiz_of_mounted hrest hid hm
  have hfile := ht.file_of_atRest hrest
  cases hr with
  | @tap key _ _ hpos hle =>
    refine ⟨{ d with page := .quiz { g with last := some key } }, ?_, ?_⟩
    · simp [Event.request, Machine.run, design, Design.step, hpage, hpos, hle]
    · refine ht.put_quiz hid rfl rfl rfl (by rfl) (fun _ => hrest.noSaves)
        (fun hne => absurd hcurrent hne) fun _ _ _ => ?_
      rw [if_pos hcurrent]
      exact .quiz rfl hfile hwrites (hsim.tap hwrites hpos hle)
  | next _ _ hanswered hlast =>
    obtain ⟨key, hkey, hselected⟩ := hsim.last_eq hwrites hanswered
    have hlength : g.graded.length + 1 ≠ N := by
      rw [(hsim.ongoing hwrites).1, ← hsim.questionCount_eq]
      exact hlast
    refine ⟨{ d with page := .quiz { graded := g.graded ++ [key], last := none } }, ?_, ?_⟩
    · simp [Event.request, Machine.run, design, Design.step, hpage, grader, hkey, hlength]
    · refine ht.put_quiz hid rfl rfl rfl (by rfl) (fun _ => hrest.noSaves)
        (fun hne => absurd hcurrent hne) fun _ _ _ => ?_
      rw [if_pos hcurrent]
      refine .quiz rfl hfile hwrites ?_
      rw [← hsim.order_press hwrites]
      exact hsim.next hwrites hselected hlast
  | submit _ _ hanswered hlast =>
    obtain ⟨key, hkey, hselected⟩ := hsim.last_eq hwrites hanswered
    have hlength : g.graded.length + 1 = N := by
      rw [(hsim.ongoing hwrites).1, ← hsim.questionCount_eq]
      exact hlast
    refine ⟨{ d with
      score := some (Grader.score b.customData { graded := g.graded ++ [key], last := none })
      page := d.home }, ?_, ?_⟩
    · simp [Event.request, Machine.run, design, Design.step, hpage, grader, hkey, hlength]
    · refine ht.put_quiz hid rfl rfl rfl (by rfl) (fun _ => hrest.noSaves)
        (fun hne => absurd hcurrent hne) fun _ _ _ => ?_
      rw [if_pos hcurrent]
      refine .writing rfl rfl ?_
      rw [hwrites, List.nil_append, hsim.score_eq hwrites hselected]

theorem store (ht : Toward b app d) {q r : Quiz.Instance} {i : Nat} {content : JsString}
    (hid : app.instances[id]? = some (.quiz q))
    (hr : Quiz.Reacts b.customData q (.settle i true) r [.storeFile content]) :
    Toward b { app.put id (.quiz r) with file := some content } d := by
  generalize hfx : [Effect.storeFile content] = fx at hr
  cases hr with
  | settle hi =>
    cases hfx
    obtain ⟨hcurrent, rfl, hwrites, hpage, hw⟩ := ht.write_of_mem hid hi
    refine ht.put_quiz hid rfl rfl rfl rfl (fun _ => ht.saved_of_home hpage)
      (fun hne => absurd hcurrent hne) fun _ _ _ => ?_
    rw [if_pos hcurrent]
    rcases hw with ⟨n, hscore, heq⟩ | ⟨-, heq⟩
    · cases heq
      exact .written hpage (by rw [hscore]; rfl) (by simp [hwrites])
    · cases heq

theorem leave (ht : Toward b app d) {q r : Quiz.Instance} {i : Nat} {fx : List Effect}
    (hid : app.instances[id]? = some (.quiz q)) (hr : Quiz.Reacts b.customData q (.resume i) r fx)
    (hmirrored : Mirrored b.customData ((app.put id (.quiz r)).push (.home {}))
      (d.profile.map Profile.some).toList) :
    Toward b ((app.put id (.quiz r)).push (.home {})) d := by
  cases hr with
  | resume hi =>
    obtain ⟨hcurrent, rfl, hwrites, hpage, hw⟩ := ht.write_of_mem hid hi
    have hfile : app.file = d.score.map numeral := by
      rcases hw with ⟨n, -, heq⟩ | ⟨hfile, -⟩
      · cases heq
      · exact hfile
    refine ⟨hmirrored, ht.unsaved, ?_, ?_, ?_, ?_⟩
    · intro _ h hmem
      rcases System.mem_push hmem with hmem | heq
      · exact ht.saved_of_home hpage h ((System.home_mem_put_quiz hid h).mp hmem)
      · cases heq
        rfl
    · exact ⟨_, System.push_current _ _,
        .loading hpage hfile rfl (by simp) rfl ⟨⟨rfl, rfl⟩, trivial⟩⟩
    · intro k g hk hne
      simp only [System.push] at hk hne
      rw [List.getElem?_append] at hk
      split at hk
      · rcases System.getElem?_put hid hk with ⟨rfl, heq⟩ | ⟨hkid, hk⟩
        · cases heq
        · exact ht.homes k g hk (hcurrent ▸ hkid)
      · rw [List.getElem?_eq_none (by simp only [List.length_singleton]; omega)] at hk
        cases hk
    · intro k p hk _
      rcases System.getElem?_push hk with hk | heq
      · rcases System.getElem?_put hid hk with ⟨rfl, heq⟩ | ⟨hkid, hk⟩
        · cases heq
          simp [hwrites]
        · exact ht.quizzes k p hk (hcurrent ▸ hkid)
      · cases heq

theorem background (ht : Toward b app d) {h r : Home.Instance} {e : Home.Event} {fx : List Effect}
    (hid : app.instances[id]? = some (.home h)) (hr : Home.Reacts h e r fx)
    (he : e.isInput = false) (hunmount : e = .unmount → id ≠ app.current)
    (hhonest : honest app h e = true) (hfulfils : e.fails = false)
    (hmirrored : Mirrored b.customData (app.put id (.home r)) (d.profile.map Profile.some).toList) :
    Toward b (app.put id (.home r)) d := by
  refine ht.put_home hid rfl rfl rfl hmirrored ht.unsaved ?_ ?_ ?_
  · intro hnil
    cases hr with
    | accepted => cases he
    | _ => simp_all
  · rintro ⟨hload, hread⟩
    cases hr with
    | checked => simp_all
    | _ => simp_all
  · intro hcurrent hs
    exact ht.reacts (List.mem_of_getElem? hid) hs hr he (fun heq => hunmount heq hcurrent) hhonest
      hfulfils

theorem step {e : Event} (ht : Toward b app d) (hp : Patient app e)
    (hst : Steps b.customData app e app') :
    ∃ d', (design b).run d e.request = some d' ∧ Toward b app' d' := by
  have hmirrored := ht.mirrored.step (ht.sequential hp hst _)
    (Event.succeeds_of_fulfils hp.fulfils) hst
  cases hst with
  | @home id h r e fx hid hhonest hunmount hr hfx =>
    rw [accepted_of_quiet hid hr hfx, List.append_nil] at hmirrored
    have hfulfils : e.fails = false := by simpa [Event.fulfils] using hp.fulfils
    cases he : e.isInput with
    | false =>
      refine ⟨d, ?_, ht.background hid hr he hunmount hhonest hfulfils hmirrored⟩
      cases e with
      | edit | login => cases he
      | _ => rfl
    | true =>
      have hrest := hp.waits (by simp [Event.isBackground, he]) (by simp)
      cases hr with
      | edit hm => exact ht.edit hrest hid hm hmirrored
      | rejected hm hf hfault => exact ht.reject hrest hid hm hf hfault hmirrored
      | accepted => simp at hfx
      | _ => cases he
  | @storeItem id i h r key value hid hr =>
    obtain ⟨hi, rfl⟩ := Home.reacts_storeItem hr
    refine ⟨d, rfl, ht.put_home hid rfl rfl rfl (by simpa [accepted] using hmirrored) ?_ ?_
      (fun hidle => hidle) ?_⟩
    · intro hnone
      have hmirrors := ht.mirrors (List.mem_of_getElem? hid)
      obtain ⟨p, hlast, -⟩ := hmirrors.saves _ (List.mem_of_getElem? hi)
      simp [hnone] at hlast
    · intro hnil
      simp [hnil] at hi
    · intro _ hs
      exact hs.congr rfl rfl rfl rfl
  | login hid hr hs =>
    have hrest := hp.waits rfl (by simp)
    cases hr with
    | accepted hm hvalid =>
      rw [accepted_of_valid hid hvalid] at hmirrored
      exact ht.login hrest hid hm hvalid hs hmirrored
  | @quiz id q r e fx hid hr hfx hne =>
    cases e with
    | input i => exact ht.input (hp.waits rfl (by simp)) hid hr
    | settle i ok =>
      cases ok with
      | false => cases hp.fulfils
      | true =>
        cases hr
        simp at hfx
    | resume i => exact absurd rfl (ne_resume_of_reacts hr hfx i)
    | unmount => exact absurd rfl hne
  | storeFile hid hr => exact ⟨d, rfl, ht.store hid hr⟩
  | leave hid hr =>
    rw [accepted_quiz, List.append_nil] at hmirrored
    exact ⟨d, rfl, ht.leave hid hr hmirrored⟩
  | unmount hid hne hr =>
    refine ⟨d, rfl, ht.put_quiz hid rfl rfl rfl rfl ht.saved ?_ fun i hi hs => ?_⟩
    · cases hr
      exact fun _ => rfl
    · rwa [if_neg hne]
  | back => exact ⟨d, rfl, ht⟩
  | kill =>
    have hrest := hp.waits rfl (by simp)
    exact ⟨{ d with page := d.home }, rfl, .boot rfl (ht.storage hrest.noSaves)
      (ht.file_of_atRest hrest) fun p hprofile => ht.valid hprofile⟩

theorem freshInstall (b : Bank N) : Toward b freshInstall {} :=
  .boot rfl (fun _ => rfl) rfl nofun

end Toward

/-- Whenever a patiently used app has come to rest, over any number of sessions, it shows
and holds what the design does after the same requests. -/
theorem patient_refines_design {N : Nat} (b : Bank N) {es : List Event} {app : System}
    (hrun : (machine b.customData).run freshInstall es = some app)
    (hpatient : (machine b.customData).Along Patient freshInstall es) :
    ∃ d, (design b).run {} (es.flatMap Event.request) = some d ∧ (AtRest app → Shows b app d) := by
  obtain ⟨d, hd, ht⟩ := hpatient.refines (R := Toward b)
    (fun _ _ _ _ ht hp hst => ht.step hp (steps_of_step hst)) (.freshInstall b) hrun
  exact ⟨d, hd, ht.shows_of_atRest⟩

instance (app : System) (e : Event) : Decidable (Patient app e) :=
  decidable_of_iff (e.fulfils = true ∧ (e.isBackground = false → e ≠ .back → AtRest app))
    ⟨fun h => ⟨h.1, h.2⟩, fun h => ⟨h.fulfils, h.waits⟩⟩

def patientQuiz : List Event :=
  onHome 0 ([.settleExists (.fulfilled false), .resumeScore] ++
      Home.loadEvents (.replicate none) ++ Home.typeEvents ann ++ [.login, .unmount] ++
      Home.saveEvents (fun _ => false) Field.all) ++
    onQuiz 1 (Quiz.fullMarks.map .input ++ [.settle 0 true, .resume 0]) ++
    onHome 2 (Home.loadEvents ann.some) ++ onQuiz 1 [.unmount] ++
    onHome 2 [.settleExists (.fulfilled true), .resumeScore, .settleRead (.fulfilled (numeral 4)),
      .resumeScore]

theorem patientQuiz_refines :
    ∃ app d, (machine Quiz.customData).run freshInstall patientQuiz = some app ∧ AtRest app ∧
      (design Quiz.bank).run {} (patientQuiz.flatMap Event.request) = some d ∧
      Shows Quiz.bank app d := by
  have hpatient : (machine Quiz.customData).Along Patient freshInstall patientQuiz :=
    Machine.along_of_checks (by decide +kernel)
  have hrest : ((machine Quiz.customData).run freshInstall patientQuiz).map System.atRest =
      some true := by decide +kernel
  obtain ⟨app, hrun, hrest⟩ := Option.map_eq_some_iff.mp hrest
  obtain ⟨d, hd, hshows⟩ := patient_refines_design Quiz.bank hrun hpatient
  exact ⟨app, d, hrun, app.atRest_iff.mp hrest, hd, hshows (app.atRest_iff.mp hrest)⟩

theorem Event.request_of_background {e : Event} (h : e.isBackground = true) : e.request = [] := by
  match e with
  | .home _ e => cases e <;> first | rfl | cases h
  | .quiz _ e => cases e <;> first | rfl | cases h
  | .back => rfl
  | .kill => cases h

theorem Event.fulfils_of_isContinuation {e : Event} (h : e.isContinuation = true) :
    e.fulfils = true := by
  match e with
  | .home _ e => cases e <;> first | rfl | cases h
  | .quiz _ e => cases e <;> first | rfl | cases h
  | .back => rfl
  | .kill => rfl

section Realised

variable {N : Nat} {b : Bank N} {app : System} {d d' : Design} {id : Nat}

theorem Toward.settles (ht : Toward b app d) :
    Settles b.customData app fun e => e.isBackground = true ∧ e.fulfils = true where
  save id h i key v hid hi := by
    have hmirrors := ht.mirrors (List.mem_of_getElem? hid)
    obtain ⟨_, hlast, hsave, -⟩ := hmirrors.saves _ (List.mem_of_getElem? hi)
    obtain ⟨p, -, rfl⟩ := Option.map_eq_some_iff.mp hlast
    obtain rfl : v = some (p.get key) := by
      rw [← Profile.get_some]
      exact hsave.value key v rfl
    refine ⟨true, ⟨rfl, rfl⟩, ?_⟩
    simp [App.step, hid, honest, Home.react, hi, performAll, perform]
  load id h point hid hl := by
    refine ⟨.fulfilled (app.storage point.key.key), ⟨rfl, rfl⟩, ?_⟩
    exact step_home_isSome hid (by simp [honest, hl]) (by simp) (.settleLoad hl)
  checkFile id h hid hl := by
    refine ⟨.fulfilled app.file.isSome, ⟨rfl, rfl⟩, ?_⟩
    exact step_home_isSome hid (by simp [honest]) (by simp) (.settleExists hl)
  readFile id h hid hl := by
    have hcurrent : id = app.current := by
      by_contra hne
      simp [(ht.homes id h hid hne).2] at hl
    obtain ⟨i, hi, hs⟩ := ht.current
    cases (hcurrent ▸ hid).symm.trans hi
    have hfile : app.file.isSome = true := by
      cases hs with
      | loading _ _ _ _ _ hsc =>
        simp only [ShowsScore, hl] at hsc
        exact hsc.2
      | form _ _ _ _ _ _ hsc =>
        simp only [ShowsScore, hl] at hsc
        exact hsc.2
    obtain ⟨content, hcontent⟩ := Option.isSome_iff_exists.mp hfile
    refine ⟨.fulfilled content, ⟨rfl, rfl⟩, ?_⟩
    exact step_home_isSome hid (by simp [honest, hcontent]) (by simp) (.settleRead hl)
  write id q i content hid hi := ⟨true, ⟨rfl, rfl⟩, step_settle_isSome hid hi true⟩

theorem Toward.progress (ht : Toward b app d) (hrest : ¬ AtRest app) :
    ∃ e : Event, (e.isBackground = true ∧ e.fulfils = true) ∧
      ((machine b.customData).step app e).isSome := by
  by_contra hstuck
  apply hrest
  refine atRest_of_stuck ht.settles (fun e he => ?_) fun e he => ?_
  · exact ⟨Event.isBackground_of_isContinuation he, Event.fulfils_of_isContinuation he⟩
  · by_contra hsome
    exact hstuck ⟨e, he, Option.isSome_iff_ne_none.mpr hsome⟩

theorem Toward.comes_to_rest (ht : Toward b app d) :
    ∃ es app', (machine b.customData).run app es = some app' ∧
      (machine b.customData).Along Patient app es ∧ es.flatMap Event.request = [] ∧
      AtRest app' ∧ Toward b app' d := by
  obtain ⟨es, app', hes, hrun, hrest⟩ := Machine.exists_run_of_decreases
    (M := machine b.customData) (μ := System.work)
    (E := fun e => e.isBackground = true ∧ e.fulfils = true)
    (P := fun app => Toward b app d → AtRest app)
    (fun app e app' he hst => background_decreases app e app' he.1 hst)
    (fun app hnot => by
      obtain ⟨ht, hrest⟩ := Classical.not_imp.mp hnot
      exact ht.progress hrest) app
  have hpatient : (machine b.customData).Along Patient app es := by
    refine .of_forall fun e he _ => ⟨(hes e he).2, fun hnot => ?_⟩
    simp [(hes e he).1] at hnot
  have hrequests : es.flatMap Event.request = [] := by
    simpa using fun e he => Event.request_of_background (hes e he).1
  obtain ⟨d', hd, ht'⟩ := hpatient.refines (R := Toward b)
    (fun _ _ _ _ ht hp hst => ht.step hp (steps_of_step hst)) ht hrun
  rw [hrequests] at hd
  cases hd
  exact ⟨es, app', hrun, hpatient, hrequests, hrest ht', ht'⟩

theorem step_input_isSome {customData : Quiz.CustomData} {q : Quiz.Instance} {i : Quiz.Input}
    (hid : app.instances[id]? = some (.quiz q))
    (hsome : ((Quiz.machine customData).step q (.input i)).isSome) :
    (step customData app (.quiz id (.input i))).isSome := by
  obtain ⟨r, hr⟩ := Option.isSome_iff_exists.mp hsome
  rw [step_input hid hr]
  rfl

theorem Toward.exists_event (ht : Toward b app d) (hrest : AtRest app) {r : Request}
    (hd : (design b).step d r = some d') :
    ∃ e app', e.request = [r] ∧ Patient app e ∧ (machine b.customData).step app e = some app' := by
  have patient : ∀ e : Event, e.fulfils = true → e.request = [r] →
      (App.step b.customData app e).isSome →
      ∃ e app', e.request = [r] ∧ Patient app e ∧ (machine b.customData).step app e = some app' := by
    intro e hfulfils hrequest hsome
    obtain ⟨app', happ⟩ := Option.isSome_iff_exists.mp hsome
    exact ⟨e, app', hrequest, ⟨hfulfils, fun _ _ => hrest⟩, happ⟩
  rcases ht.page_of_atRest hrest with ⟨h, form, errors, hh, hpage, hm, hstate⟩ |
    ⟨q, g, hq, hpage, hwrites, hsim⟩
  · cases r with
    | edit f v =>
      exact patient (.home app.current (.edit f (some v))) rfl rfl
        (step_home_isSome hh rfl (by simp) (.edit hm))
    | login =>
      have hchecks : ∀ f : Field, f.check (h.state.values.get f) = .ok (form.faults.get f) := by
        intro f
        rw [hstate, Profile.get_some, Field.check_eq_fault, Profile.get_faults]
      refine patient (.home app.current .login) rfl rfl ?_
      cases hfault : form.faults.hasFault with
      | true => exact step_home_isSome hh rfl (by simp) (.rejected hm hchecks hfault)
      | false =>
        have hvalid : ∀ f : Field, f.check (h.state.values.get f) = .ok false := by
          intro f
          rw [hchecks f, Profile.hasFault_eq_false.mp hfault f]
        rw [step_login hh hm hvalid b.mount_eq]
        rfl
    | tap key => simp [design, Design.step, hpage] at hd
    | press => simp [design, Design.step, hpage] at hd
    | restart => exact patient .kill rfl rfl rfl
  · cases r with
    | edit f v => simp [design, Design.step, hpage] at hd
    | login => simp [design, Design.step, hpage] at hd
    | tap key =>
      simp only [design, Design.step, hpage] at hd
      split at hd
      · rename_i hkey
        exact patient (.quiz app.current (.input (.tap key))) rfl rfl
          (step_input_isSome hq (hsim.tap_isSome hkey.1 hkey.2))
      · cases hd
    | press =>
      have hanswered : q.state.answered = true := by
        by_contra hnot
        have hlast := (hsim.ongoing hwrites).2
        rw [if_neg hnot, Option.map_eq_none_iff] at hlast
        simp [design, Design.step, hpage, grader, hlast] at hd
      exact patient (.quiz app.current (.input .press)) rfl rfl
        (step_input_isSome hq (hsim.press_isSome hanswered))
    | restart => exact patient .kill rfl rfl rfl

/-- Every run of the design is that of some patiently used app. -/
theorem design_realised {rs : List Request} (hd : (design b).run {} rs = some d) :
    ∃ es app, (machine b.customData).run App.freshInstall es = some app ∧
      (machine b.customData).Along Patient App.freshInstall es ∧ es.flatMap Event.request = rs ∧
      AtRest app ∧ Shows b app d := by
  obtain ⟨es, app, hrun, hpatient, hrequests, hrest, ht⟩ := (Toward.freshInstall b).comes_to_rest
  obtain ⟨fs, app', hrun', hpatient', hrequests', ht', hrest'⟩ := Machine.exists_run_of_realises
    (M := machine b.customData) (A := design b) (f := Event.request) (C := Patient)
    (R := fun app d => Toward b app d ∧ AtRest app) (fun app d r d' h hd => by
      obtain ⟨ht, hrest⟩ := h
      obtain ⟨e, app₁, hrequest, hpatient, hstep⟩ := ht.exists_event hrest hd
      obtain ⟨d₁, hd₁, ht₁⟩ := ht.step hpatient (steps_of_step hstep)
      have heq : d₁ = d' := by
        rw [hrequest, Machine.run, hd] at hd₁
        exact (Option.some.inj hd₁).symm
      subst heq
      obtain ⟨es, app₂, hrun, hpatient', hrequests, hrest₂, ht₂⟩ := ht₁.comes_to_rest
      refine ⟨e :: es, app₂, by simp [Machine.run, hstep, hrun],
        (Machine.along_cons hstep).mpr ⟨hpatient, hpatient'⟩, ?_, ht₂, hrest₂⟩
      rw [List.flatMap_cons, hrequest, hrequests, List.append_nil]) ⟨ht, hrest⟩ hd
  refine ⟨es ++ fs, app', ?_, hpatient.append hrun hpatient', ?_, hrest', ht'.shows_of_atRest hrest'⟩
  · simp [Machine.run_append, hrun, hrun']
  · rw [List.flatMap_append, hrequests, hrequests', List.nil_append]

end Realised

theorem patientQuiz_realised :
    ∃ es app d, (machine Quiz.customData).run freshInstall es = some app ∧
      (machine Quiz.customData).Along Patient freshInstall es ∧
      es.flatMap Event.request = patientQuiz.flatMap Event.request ∧
      d.score = some 4 ∧ AtRest app ∧ Shows Quiz.bank app d := by
  have hscore : ((design Quiz.bank).run {} (patientQuiz.flatMap Event.request)).map (·.score) =
      some (some 4) := by decide +kernel
  obtain ⟨d, hd, hscore⟩ := Option.map_eq_some_iff.mp hscore
  obtain ⟨es, app, hrun, hpatient, hrequests, hrest, hshows⟩ := design_realised (b := Quiz.bank) hd
  exact ⟨es, app, d, hrun, hpatient, hrequests, hscore, hrest, hshows⟩

end QuizApp.App
