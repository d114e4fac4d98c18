import QuizApp.App.Crash

namespace QuizApp.App

open Js
open Home (Field Profile SetData ann)

/-- One save at a time, whose calls succeed, and which is through when the session ends. -/
structure Unharmed (app : System) (e : Event) : Prop where
  one : OneSave app e
  succeeds : ∀ id i, e ≠ .home id (.settleSave i false)
  kill : e = .kill → NoSaves app

structure Durable (storage : Storage) (app : System) (l : List (Profile (Option JsString)))
    (stage : Field → Nat) : Prop where
  torn : Torn storage app l stage
  succeeded : ∀ h, .home h ∈ app.instances → ∀ key, .settled key false ∉ h.saves
  whole : NoSaves app → ∀ f, stage f = l.length

section Step

variable {storage : Storage} {customData : Quiz.CustomData} {app app' : System}
  {l : List (Profile (Option JsString))} {stage : Field → Nat} {id : Nat}

theorem Durable.boot (storage : Storage) (file : Option JsString) :
    Durable storage (boot storage file) [] fun _ => 0 where
  torn := .boot storage file
  succeeded h hh key := by
    cases List.mem_singleton.mp hh
    simp
  whole _ _ := rfl

theorem Durable.of_homes (hd : Durable storage app l stage)
    (hhomes : ∀ h, .home h ∈ app.instances → .home h ∈ app'.instances)
    (hnew : ∀ h, .home h ∈ app'.instances → .home h ∈ app.instances ∨ h.saves = [])
    (hstorage : app'.storage = app.storage) : Durable storage app' l stage where
  torn := hd.torn.of_homes hnew hstorage
  succeeded h hh key := by
    rcases hnew h hh with hh | hnil
    · exact hd.succeeded h hh key
    · simp [hnil]
  whole hno := hd.whole fun h hh => hno h (hhomes h hh)

theorem Durable.done {h r : Home.Instance} {e : Home.Event} {fx : List Effect}
    (hd : Durable storage app l stage) (hid : app.instances[id]? = some (.home h))
    (hr : Home.Reacts h e r fx) (hnil : r.saves = []) :
    h.saves = [] ∨ ∀ f, stage f = l.length := by
  cases hr with
  | accepted => simp at hnil
  | storeItem => exact .inl (by simpa using hnil)
  | failItem => exact .inl (by simpa using hnil)
  | saveNext => exact .inl (by simpa using hnil)
  | saveDone hi hnext =>
    obtain ⟨p, -, hw⟩ := hd.torn.saves h (List.mem_of_getElem? hid) _ (List.mem_of_getElem? hi)
    refine .inr fun f => hw.done f ?_
    rw [Home.Field.next_eq_none.mp hnext]
    exact f.rank_lt
  | saveFailed hi =>
    exact absurd (List.mem_of_getElem? hi) (hd.succeeded h (List.mem_of_getElem? hid) _)
  | loadDone => exact .inl (by simpa using hnil)
  | readDone => exact .inl (by simpa using hnil)
  | _ => exact .inl hnil

theorem Durable.home {h r : Home.Instance} {e : Home.Event} {fx : List Effect}
    (hd : Durable storage app l stage) (hid : app.instances[id]? = some (.home h))
    (hr : Home.Reacts h e r fx) (hfx : ∀ x ∈ fx, ∃ error, x = .unhandledRejection error)
    (hu : Unharmed app (.home id e)) : Durable storage (app.put id (.home r)) l stage where
  torn := hd.torn.home hid hr hfx hu.one
  succeeded := by
    refine System.forall_home_put hd.succeeded ?_
    have hh := hd.succeeded h (List.mem_of_getElem? hid)
    intro key hkey
    cases hr with
    | accepted => simp at hfx
    | storeItem => simp at hfx
    | failItem => exact hu.succeeds _ _ rfl
    | saveNext =>
      rcases List.mem_or_eq_of_mem_set hkey with hkey | heq
      · exact hh key hkey
      · cases heq
    | saveDone => exact hh key (List.mem_of_mem_eraseIdx hkey)
    | saveFailed => exact hh key (List.mem_of_mem_eraseIdx hkey)
    | loadDone => exact hh key (by simpa using hkey)
    | readDone => exact hh key (by simpa using hkey)
    | _ => exact hh key hkey
  whole hno := by
    rcases hd.done hid hr (hno r (System.mem_put_self hid)) with hnil | hwhole
    · exact hd.whole (NoSaves.of_put hid hno hnil)
    · exact hwhole

theorem Durable.store {h : Home.Instance} {i : Nat} {key : Field} {v : JsString}
    (hd : Durable storage app l stage) (hid : app.instances[id]? = some (.home h))
    (hi : h.saves[i]? = some (.calling key (some v))) :
    Durable storage { app.put id (.home { h with saves := h.saves.set i (.settled key true) }) with
      storage := app.storage.setItem key.key v } l (Function.update stage key l.length) where
  torn := hd.torn.store hid hi
  succeeded := by
    refine System.forall_home_put hd.succeeded ?_
    intro k hk
    rcases List.mem_or_eq_of_mem_set hk with hk | heq
    · exact hd.succeeded h (List.mem_of_getElem? hid) k hk
    · cases heq
  whole hno := by
    have hset := hno _ (System.mem_put_self hid)
    rw [List.set_eq_nil_iff] at hset
    rw [hset] at hi
    cases hi

theorem Durable.login {h : Home.Instance} (hd : Durable storage app l stage)
    (hid : app.instances[id]? = some (.home h)) (hno : NoSaves app) :
    Durable storage (app.put id (.home { h with saves := h.saves ++ [Home.setData h.state] }))
      (l ++ [h.state.values]) stage where
  torn := hd.torn.login hid hno
  succeeded := by
    refine System.forall_home_put hd.succeeded ?_
    rw [hno h (List.mem_of_getElem? hid)]
    simp [Home.setData]
  whole hno' := by
    have hnil := hno' _ (System.mem_put_self hid)
    simp at hnil

theorem Durable.step {e : Event} (hd : Durable storage app l stage) (hu : Unharmed app e)
    (hst : Steps customData app e app') :
    ∃ stage', Durable storage app' (l ++ accepted app e) stage' := by
  have hquiz : ∀ {id : Nat} {q r : Quiz.Instance}, app.instances[id]? = some (.quiz q) →
      Durable storage (app.put id (.quiz r)) l stage := by
    intro id q r hid
    refine hd.of_homes ?_ ?_ rfl
    · intro h hh
      exact (System.home_mem_put_quiz hid h).mpr hh
    · intro h hh
      exact .inl ((System.home_mem_put_quiz hid h).mp hh)
  cases hst with
  | home hid _ _ hr hfx =>
    rw [accepted_of_quiet hid hr hfx, List.append_nil]
    exact ⟨stage, hd.home hid hr hfx hu⟩
  | storeItem hid hr =>
    obtain ⟨hi, rfl⟩ := Home.reacts_storeItem hr
    exact ⟨_, by simpa [accepted] using hd.store hid hi⟩
  | login hid hr =>
    cases hr with
    | accepted _ hvalid =>
      have haccepted := accepted_of_valid hid hvalid
      rw [haccepted]
      have hlogin := hd.login hid (hu.one.login (by simp [haccepted]))
      refine ⟨stage, hlogin.of_homes (fun g hg => List.mem_append_left _ hg) ?_ rfl⟩
      intro g hg
      exact .inl (by simpa [System.push] using hg)
  | quiz hid =>
    rw [accepted_quiz, List.append_nil]
    exact ⟨stage, hquiz hid⟩
  | storeFile hid =>
    rw [accepted_quiz, List.append_nil]
    exact ⟨stage, (hquiz hid).of_homes (fun _ hh => hh) (fun _ hh => .inl hh) rfl⟩
  | leave hid =>
    rw [accepted_quiz, List.append_nil]
    refine ⟨stage, (hquiz hid).of_homes (fun h hh => List.mem_append_left _ hh) ?_ rfl⟩
    intro h hh
    rcases System.mem_push hh with hh | heq
    · exact .inl hh
    · cases heq
      exact .inr rfl
  | unmount hid =>
    rw [accepted_quiz, List.append_nil]
    exact ⟨stage, (hquiz hid).of_homes (fun _ hh => hh) (fun _ hh => .inl hh) rfl⟩
  | back => exact ⟨stage, by simpa [accepted] using hd⟩
  | kill =>
    refine ⟨stage, ?_⟩
    rw [show accepted app .kill = [] from rfl, List.append_nil]
    refine ⟨hd.torn.restart, ?_, fun _ => hd.whole (hu.kill rfl)⟩
    intro h hh key
    cases List.mem_singleton.mp hh
    simp

end Step

/-- Whenever no save is under way, the storage holds the profile accepted last, whatever the
user has done meanwhile. -/
theorem last_profile_durable (customData : Quiz.CustomData) (storage : Storage)
    (file : Option JsString) {es : List Event} {app : System}
    (hrun : (machine customData).run (boot storage file) es = some app)
    (hu : (machine customData).Along Unharmed (boot storage file) es) (hno : NoSaves app)
    (f : Field) :
    app.storage f.key =
      (((machine customData).log accepted (boot storage file) es).getLast?.map
        fun p => p.get f).getD (storage f.key) := by
  obtain ⟨stage, hd⟩ := hu.invariant (K := fun app l => ∃ stage, Durable storage app l stage)
    ⟨_, .boot storage file⟩ (fun _ _ _ _ ⟨_, hd⟩ hu hst => hd.step hu (steps_of_step hst)) hrun
  obtain ⟨v, hv, hf⟩ := hd.torn.layered.version f
  rw [hd.whole hno f] at hv
  rw [← hf]
  cases hlast : ((machine customData).log accepted (boot storage file) es).getLast? with
  | none =>
    rw [List.getLast?_eq_none_iff.mp hlast] at hv
    cases hv
    rfl
  | some p =>
    rw [Torn.newest hlast storage, Option.some.injEq] at hv
    rw [← hv]
    rfl

theorem unharmed_iff (app : System) (e : Event) :
    (OneSave app e ∧ (match e with
      | .home _ (.settleSave _ false) => false
      | .kill => decide (NoSaves app)
      | _ => true) = true) ↔ Unharmed app e := by
  constructor
  · rintro ⟨hone, h⟩
    refine ⟨hone, ?_, ?_⟩
    · rintro id i rfl
      cases h
    · rintro rfl
      exact of_decide_eq_true h
  · intro h
    refine ⟨h.one, ?_⟩
    split
    · exact absurd rfl (h.succeeds _ _)
    · exact decide_eq_true (h.kill rfl)
    · rfl

instance (app : System) (e : Event) : Decidable (Unharmed app e) :=
  decidable_of_iff _ (unharmed_iff app e)

def hastyLogin : List Event :=
  onHome 0 (Home.typeEvents ann ++ [.login, .settleSave 0 true, .resumeSave 0]) ++
    onQuiz 1 [.input (.tap 1)] ++
    onHome 0 (Home.saveEvents (fun _ => false) [.lastName]) ++ onQuiz 1 [.input .press] ++
    onHome 0 (Home.saveEvents (fun _ => false) [.nickName, .age])

theorem hastyLogin_durable : ∃ app,
    (machine Quiz.customData).run freshInstall hastyLogin = some app ∧
      ∀ f : Field, app.storage f.key = some (ann.get f) := by
  have hend : ((machine Quiz.customData).run freshInstall hastyLogin).any (NoSaves ·) = true := by
    decide +kernel
  obtain ⟨app, hrun, hno⟩ := (Option.any_eq_true _ _).mp hend
  have hlog : (machine Quiz.customData).log accepted freshInstall hastyLogin = [ann.some] := by
    decide +kernel
  have hdurable := last_profile_durable Quiz.customData (fun _ => none) none hrun
    (Machine.along_of_checks (by decide +kernel))
    (of_decide_eq_true hno)
  rw [← freshInstall, hlog] at hdurable
  refine ⟨app, hrun, fun f => ?_⟩
  rw [hdurable f]
  cases f <;> rfl

end QuizApp.App
