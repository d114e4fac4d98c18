import QuizApp.Home.RoundTrip
import QuizApp.App.Profile
import QuizApp.App.Sessions

namespace QuizApp.App

open Js
open Home (Field Profile Mirrors ann)

def Event.isInput : Event → Bool
  | .home _ e => e.isInput
  | .quiz _ (.input _) => true
  | _ => false

def NoSaves (app : System) : Prop := ∀ h, .home h ∈ app.instances → h.saves = []

def NoLoads (app : System) : Prop := ∀ h, .home h ∈ app.instances → h.load = none

instance (app : System) : Decidable (NoSaves app) :=
  inferInstanceAs (Decidable (∀ h, .home h ∈ app.instances → h.saves = []))

instance (app : System) : Decidable (NoLoads app) :=
  inferInstanceAs (Decidable (∀ h, .home h ∈ app.instances → h.load = none))

/-- Saves and loads finish before the next edit, login press or quiz input, and a save
also before the quiz is left for the next `HomeScreen` or the session ends. -/
structure Sequential (app : System) (_ : List (Profile (Option JsString))) (e : Event) : Prop where
  input : e.isInput = true → NoSaves app ∧ NoLoads app
  leave : ∀ id i, e = .quiz id (.resume i) → NoSaves app
  kill : e = .kill → NoSaves app

/-- `h` holds the profile `p`, and Login, pressed at once, saves it over itself. -/
structure Restored (customData : Quiz.CustomData) (app : System) (id : Nat) (h : Home.Instance)
    (p : Profile (Option JsString)) : Prop where
  values : h.state.values = p
  errors : h.state.errors = .replicate false
  valid : Home.validate h.state = .ok (true, h.state)
  login : (step customData app (.home id .login)).isSome
  storage : ∀ es app', (∀ e ∈ es, e.isInput = false) →
    (machine customData).run app (.home id .login :: es) = some app' → app'.storage = app.storage

structure RoundTrips (customData : Quiz.CustomData) (app : System)
    (l : List (Profile (Option JsString))) (e : Event) : Prop where
  load : ∀ id app' h p, e = .home id .resumeLoad → step customData app e = some app' →
    app'.instances[id]? = some (.home h) → h.mounted = true → h.load = none →
    l.getLast? = some p → Restored customData app' id h p
  frame : ∀ app', step customData app e = some app' → e.isInput = true ∨ (∃ id e', e = .quiz id e') →
    app'.storage = app.storage
  stored : NoSaves app → ∀ p, l.getLast? = some p → ∀ f : Field, app.storage f.key = p.get f

structure Mirrored (customData : Quiz.CustomData) (app : System)
    (l : List (Profile (Option JsString))) : Prop where
  homes : ∀ h, .home h ∈ app.instances → Mirrors app.storage l.getLast? h
  phase : NoSaves app ∨ NoLoads app
  stored : NoSaves app → ∀ p, l.getLast? = some p → ∀ f : Field, app.storage f.key = p.get f
  accepted : ∀ p, l.getLast? = some p →
    (∀ f : Field, f.check (p.get f) = .ok false) ∧ ∃ s, Quiz.mount customData = .ok s

section Homes

variable {app : System} {id : Nat}

theorem NoSaves.boot (storage : Storage) (file : Option JsString) : NoSaves (boot storage file) := by
  intro h hh
  cases List.mem_singleton.mp hh
  rfl

theorem NoSaves.of_put {h r : Home.Instance} (hid : app.instances[id]? = some (.home h))
    (hno : NoSaves (app.put id (.home r))) (hsaves : h.saves = []) : NoSaves app := by
  intro g hg
  by_cases heq : g = h
  · rw [heq, hsaves]
  · exact hno g (System.mem_put_of_ne hid hg (by simpa using heq))

theorem accepted_quiz (app : System) (id : Nat) (e : Quiz.Event) :
    accepted app (.quiz id e) = [] := rfl

theorem accepted_of_quiet {h r : Home.Instance} {e : Home.Event} {fx : List Effect}
    (hid : app.instances[id]? = some (.home h)) (hr : Home.Reacts h e r fx)
    (hfx : ∀ x ∈ fx, ∃ error, x = .unhandledRejection error) : accepted app (.home id e) = [] := by
  cases hr with
  | accepted => simp at hfx
  | rejected _ hf hfault => simp [accepted, hid, Home.validate_of_faulty hf hfault]
  | _ => rfl

end Homes

namespace Mirrored

variable {customData : Quiz.CustomData} {app app' : System}
  {l : List (Profile (Option JsString))} {id : Nat}

theorem of_homes (hm : Mirrored customData app l)
    (hhomes : ∀ h, .home h ∈ app'.instances ↔ .home h ∈ app.instances)
    (hstorage : app'.storage = app.storage) : Mirrored customData app' l where
  homes h hmem := by
    rw [hstorage]
    exact hm.homes h ((hhomes h).mp hmem)
  phase := by
    simp only [NoSaves, NoLoads, hhomes]
    exact hm.phase
  stored := by
    simp only [NoSaves, hhomes, hstorage]
    exact hm.stored
  accepted := hm.accepted

theorem boot {storage : Storage} (file : Option JsString)
    (hstored : ∀ p, l.getLast? = some p → ∀ f : Field, storage f.key = p.get f)
    (haccepted : ∀ p, l.getLast? = some p →
      (∀ f : Field, f.check (p.get f) = .ok false) ∧ ∃ s, Quiz.mount customData = .ok s) :
    Mirrored customData (boot storage file) l := by
  refine ⟨?_, .inl (.boot storage file), fun _ => hstored, haccepted⟩
  intro h hmem
  cases List.mem_singleton.mp hmem
  exact .fresh _ _

theorem home (hm : Mirrored customData app l) {h r : Home.Instance} {e : Home.Event}
    {fx : List Effect} (hid : app.instances[id]? = some (.home h)) (hhonest : honest app h e = true)
    (hr : Home.Reacts h e r fx) (hfx : ∀ x ∈ fx, ∃ error, x = .unhandledRejection error)
    (hok : Event.succeeds (.home id e) = true) (hseq : Sequential app l (.home id e)) :
    Mirrored customData (app.put id (.home r)) l := by
  have hmem := List.mem_of_getElem? hid
  have hread : ∀ point reply, h.load = some (.calling point) → e = .settleLoad reply →
      reply = .fulfilled (app.storage point.key.key) := by
    rintro point reply hload rfl
    cases reply with
    | rejected => cases hok
    | fulfilled value => simpa [honest, hload] using hhonest
  have hwrite : ∀ i, e ≠ .settleSave i false := by
    rintro i rfl
    cases hok
  obtain ⟨hmirrors, hsaves, hload, hdone⟩ := (hm.homes h hmem).reacts hr hfx hread hwrite
    (fun he => ⟨(hseq.input he).1 h hmem, (hseq.input he).2 h hmem⟩)
    (hm.phase.imp (· h hmem) (· h hmem))
  refine ⟨System.forall_home_put hm.homes hmirrors, ?_, ?_, hm.accepted⟩
  · rcases hm.phase with hno | hno
    · exact .inl (System.forall_home_put hno (hsaves (hno h hmem)))
    · exact .inr (System.forall_home_put hno (hload (hno h hmem)))
  · intro hno p hlast
    rcases hdone (hno r (System.mem_put_self hid)) with hnil | ⟨p', hlast', hst⟩
    · exact hm.stored (hno.of_put hid hnil) p hlast
    · cases hlast.symm.trans hlast'
      exact hst

theorem store (hm : Mirrored customData app l) {h : Home.Instance} {i : Nat} {key : Field}
    {v : JsString} (hid : app.instances[id]? = some (.home h))
    (hi : h.saves[i]? = some (.calling key (some v))) :
    Mirrored customData
      { app.put id (.home { h with saves := h.saves.set i (.settled key true) }) with
        storage := app.storage.setItem key.key v } l := by
  have hmem := List.mem_of_getElem? hid
  have hno : NoLoads app := by
    refine hm.phase.resolve_left fun hno => ?_
    rw [hno h hmem] at hi
    cases hi
  obtain ⟨hv, hmirrors⟩ := (hm.homes h hmem).store (hno h hmem) hi
  refine ⟨?_, .inr (System.forall_home_put hno (hno h hmem)), ?_, hm.accepted⟩
  · exact System.forall_home_put (fun g hg => (hm.homes g hg).overwrite (hno g hg) hv) hmirrors
  · intro hnil
    have hset := hnil _ (System.mem_put_self hid)
    rw [List.set_eq_nil_iff] at hset
    rw [hset] at hi
    cases hi

theorem of_login {h : Home.Instance} {s : Quiz.State}
    (hid : app.instances[id]? = some (.home h))
    (hvalid : ∀ f : Field, f.check (h.state.values.get f) = .ok false)
    (hs : Quiz.mount customData = .ok s) (hseq : Sequential app l (.home id .login)) :
    Mirrored customData (app.put id (.home { h with saves := h.saves ++ [Home.setData h.state] }))
      (l ++ [h.state.values]) := by
  have hmem := List.mem_of_getElem? hid
  obtain ⟨hsaves, hloads⟩ := hseq.input rfl
  have hlast : (l ++ [h.state.values]).getLast? = some h.state.values := by simp
  rw [hsaves h hmem, List.nil_append]
  refine ⟨System.forall_home_put (fun g hg => .of_idle (hsaves g hg) (hloads g hg)) ?_,
    .inr (System.forall_home_put hloads (hloads h hmem)), ?_, ?_⟩
  · refine ⟨?_, by simp [hloads h hmem]⟩
    intro x hx
    cases List.mem_singleton.mp hx
    exact ⟨_, hlast, .start _ _, fun f hf => absurd hf (Nat.not_lt_zero _)⟩
  · intro hnil
    have hcons := hnil _ (System.mem_put_self hid)
    cases hcons
  · intro p hp
    cases hlast.symm.trans hp
    exact ⟨hvalid, s, hs⟩

theorem push (hm : Mirrored customData app l) (hno : NoSaves app) :
    Mirrored customData (app.push (.home {})) l := by
  have hhome : ∀ h, .home h ∈ (app.push (.home {})).instances → .home h ∈ app.instances ∨ h = {} := by
    intro h hmem
    simpa [System.push] using hmem
  refine ⟨fun h hmem => ?_, .inl fun h hmem => ?_, fun _ => hm.stored hno, hm.accepted⟩
  · rcases hhome h hmem with hmem | rfl
    · exact hm.homes h hmem
    · exact .fresh _ _
  · rcases hhome h hmem with hmem | rfl
    · exact hno h hmem
    · rfl

theorem step {e : Event} (hm : Mirrored customData app l) (hseq : Sequential app l e)
    (hok : e.succeeds = true) (hst : Steps customData app e app') :
    Mirrored customData app' (l ++ App.accepted app e) := by
  cases hst with
  | home hid hhonest _ hr hfx =>
    rw [accepted_of_quiet hid hr hfx, List.append_nil]
    exact hm.home hid hhonest hr hfx hok hseq
  | storeItem hid hr =>
    obtain ⟨hi, rfl⟩ := Home.reacts_storeItem hr
    simpa [App.accepted] using hm.store hid hi
  | login hid hr hs =>
    cases hr with
    | accepted _ hvalid =>
      rw [accepted_of_valid hid hvalid]
      exact (of_login hid hvalid hs hseq).of_homes (by simp [System.push]) rfl
  | quiz hid =>
    rw [accepted_quiz, List.append_nil]
    exact hm.of_homes (System.home_mem_put_quiz hid) rfl
  | storeFile hid =>
    rw [accepted_quiz, List.append_nil]
    exact hm.of_homes (System.home_mem_put_quiz hid) rfl
  | leave hid =>
    rw [accepted_quiz, List.append_nil]
    apply (hm.of_homes (System.home_mem_put_quiz hid) rfl).push
    intro h hh
    exact hseq.leave _ _ rfl h ((System.home_mem_put_quiz hid h).mp hh)
  | unmount hid =>
    rw [accepted_quiz, List.append_nil]
    exact hm.of_homes (System.home_mem_put_quiz hid) rfl
  | back => simpa [App.accepted] using hm
  | kill => simpa [App.accepted] using boot app.file (hm.stored (hseq.kill rfl)) hm.accepted

end Mirrored

structure Unchanged (st : Storage) (app : System) : Prop where
  storage : app.storage = st
  homes : ∀ h, .home h ∈ app.instances → Home.Rewrites st h

theorem Unchanged.step {customData : Quiz.CustomData} {st : Storage} {app app' : System} {e : Event}
    (hu : Unchanged st app) (he : e.isInput = false) (hst : Steps customData app e app') :
    Unchanged st app' := by
  refine ⟨?_, forall_homes_step hst (.of_nil rfl) ?_ hu.homes⟩
  · cases hst with
    | storeItem hid hr =>
      have hh := hu.homes _ (List.mem_of_getElem? hid)
      obtain ⟨hi, -⟩ := Home.reacts_storeItem hr
      rw [hu.storage, Storage.setItem, hh.calling _ _ (List.mem_of_getElem? hi)]
      exact Function.update_eq_self _ _
    | _ => exact hu.storage
  · rintro _ _ _ _ _ rfl _ _ hr hh
    exact hh.reacts hr he

theorem Unchanged.run {customData : Quiz.CustomData} {st : Storage} {app app' : System}
    {es : List Event} (hu : Unchanged st app) (hes : ∀ e ∈ es, e.isInput = false)
    (hrun : (machine customData).run app es = some app') : app'.storage = st := by
  have hmeets : (machine customData).Meets Machine.unobserved (fun _ _ e => e.isInput = false)
      app es := fun pre e hpre _ _ _ _ => hes e (hpre.subset (by simp))
  exact (hmeets.invariant (K := fun app _ => Unchanged st app) hu
    (fun _ _ _ _ hu he hst => hu.step he (steps_of_step hst)) hrun).storage

theorem Unchanged.login {customData : Quiz.CustomData} {app app' : System} {id : Nat}
    {h : Home.Instance} (hid : app.instances[id]? = some (.home h)) (hno : NoSaves app)
    (hload : h.load = none) (hvalues : ∀ f : Field, h.state.values.get f = app.storage f.key)
    (hst : Steps customData app (.home id .login) app') : Unchanged app.storage app' := by
  have hothers : ∀ g, .home g ∈ app.instances → Home.Rewrites app.storage g :=
    fun g hg => .of_nil (hno g hg)
  have hr : ∀ r fx, Home.Reacts h .login r fx → Home.Rewrites app.storage r := by
    intro r fx hr
    have hnil := hno h (List.mem_of_getElem? hid)
    cases hr with
    | rejected => exact .of_nil hnil
    | accepted =>
      refine ⟨?_, fun _ => ⟨hload, hvalues⟩⟩
      intro key v hv
      rw [hnil, List.nil_append, List.mem_singleton] at hv
      cases hv
      exact hvalues .firstName
  cases hst with
  | home hid' _ _ hr' =>
    cases hid.symm.trans hid'
    exact ⟨rfl, System.forall_home_put hothers (hr _ _ hr')⟩
  | login hid' hr' =>
    cases hid.symm.trans hid'
    refine ⟨rfl, fun g hg => ?_⟩
    rcases System.mem_push hg with hg | heq
    · exact System.forall_home_put hothers (hr _ _ hr') g hg
    · cases heq

theorem Restored.of_values {customData : Quiz.CustomData} {app : System} {id : Nat}
    {h : Home.Instance} {p : Profile (Option JsString)} {s : Quiz.State}
    (hid : app.instances[id]? = some (.home h)) (hmounted : h.mounted = true)
    (hload : h.load = none) (hno : NoSaves app) (hvalues : h.state.values = p)
    (herrors : h.state.errors = .replicate false) (hst : ∀ f : Field, app.storage f.key = p.get f)
    (hvalid : ∀ f : Field, f.check (p.get f) = .ok false) (hs : Quiz.mount customData = .ok s) :
    Restored customData app id h p := by
  subst hvalues
  have hlogin := step_login hid hmounted hvalid hs
  refine ⟨rfl, herrors, Home.validate_of_valid hvalid, by rw [hlogin]; rfl, ?_⟩
  intro es app' hes hrun
  obtain ⟨app₁, hstep, hrun⟩ := Option.bind_eq_some_iff.mp hrun
  have hlogin := Unchanged.login hid hno hload (fun f => (hst f).symm) (steps_of_step hstep)
  exact hlogin.run hes hrun

theorem Mirrored.restored {customData : Quiz.CustomData} {app app' : System}
    {l : List (Profile (Option JsString))} {id : Nat} {h : Home.Instance}
    {p : Profile (Option JsString)} (hm : Mirrored customData app l)
    (hst : Steps customData app (.home id .resumeLoad) app')
    (hid' : app'.instances[id]? = some (.home h)) (hmounted : h.mounted = true)
    (hload : h.load = none) (hlast : l.getLast? = some p) : Restored customData app' id h p := by
  obtain ⟨hvalid, s, hs⟩ := hm.accepted p hlast
  cases hst with
  | @home _ g r _ _ hid _ _ hr _ =>
    have hmirrors := hm.homes g (List.mem_of_getElem? hid)
    have hr' := hid'
    rw [System.put_self hid, Option.some.injEq, Instance.home.injEq] at hr'
    subst hr'
    cases hr with
    | loadNext => cases hload
    | loadFailed hl => exact absurd rfl ((hmirrors.load _ hl).1.succeeded _)
    | @loadDone point value read hl hread =>
      have hno : NoSaves app := by
        refine hm.phase.resolve_right fun hno => ?_
        rw [hno g (List.mem_of_getElem? hid)] at hl
        cases hl
      have hstored := hm.stored hno p hlast
      have hg : g.mounted = true := by
        simpa [Home.Instance.setState, apply_ite Home.Instance.mounted] using hmounted
      have hstate := hmirrors.restore hg hl hread hstored hvalid
      apply Restored.of_values hid' hmounted hload _ _ _ hstored hvalid hs
      · apply System.forall_home_put hno
        simpa using hno g (List.mem_of_getElem? hid)
      · exact congrArg Home.State.values hstate
      · exact congrArg Home.State.errors hstate

theorem storage_of_steps {customData : Quiz.CustomData} {app app' : System} {e : Event}
    (hst : Steps customData app e app')
    (he : ∀ id i, e ≠ .home id (.settleSave i true)) : app'.storage = app.storage := by
  cases hst with
  | storeItem => exact absurd rfl (he _ _)
  | _ => rfl

theorem Mirrored.roundTrips {customData : Quiz.CustomData} {app : System} {e : Event}
    {l : List (Profile (Option JsString))} (hm : Mirrored customData app l) :
    RoundTrips customData app l e where
  load id app' h p he hstep hid hmounted hload hlast := by
    subst he
    exact hm.restored (steps_of_step hstep) hid hmounted hload hlast
  frame app' hstep he := by
    apply storage_of_steps (steps_of_step hstep)
    rintro id i rfl
    rcases he with he | ⟨id', e', he⟩
    · cases he
    · cases he
  stored := hm.stored

/-- In every history with one input at a time and no failing storage call, a load gives
back the profile accepted last. -/
theorem roundTrips_of_sequential (customData : Quiz.CustomData) (storage : Storage)
    (file : Option JsString) (es : List Event) (hok : ∀ e ∈ es, e.succeeds = true)
    (hseq : (machine customData).Meets accepted Sequential (boot storage file) es) :
    (machine customData).Meets accepted (RoundTrips customData) (boot storage file) es := by
  refine hseq.mem.imp (K := Mirrored customData) (.boot file (by simp) (by simp)) ?_ ?_
  · rintro app l e app' hm ⟨hseq, he⟩ hst
    exact hm.step hseq (hok e he) (steps_of_step hst)
  · intro app l e app' hm _ _
    exact hm.roundTrips

def Event.leaves : Event → Bool
  | .quiz _ (.resume _) | .kill => true
  | _ => false

theorem sequential_iff (app : System) (l : List (Profile (Option JsString))) (e : Event) :
    ((e.isInput = true → NoSaves app ∧ NoLoads app) ∧ (e.leaves = true → NoSaves app)) ↔
      Sequential app l e := by
  constructor
  · rintro ⟨hinput, hleaves⟩
    refine ⟨hinput, ?_, ?_⟩
    · rintro id i rfl
      exact hleaves rfl
    · rintro rfl
      exact hleaves rfl
  · intro h
    refine ⟨h.input, ?_⟩
    intro hleaves
    unfold Event.leaves at hleaves
    split at hleaves
    · exact h.leave _ _ rfl
    · exact h.kill rfl
    · cases hleaves

instance (app : System) (l : List (Profile (Option JsString))) (e : Event) :
    Decidable (Sequential app l e) := decidable_of_iff _ (sequential_iff app l e)

def savedQuiz : List Event :=
  onHome 0 (Home.loadEvents (.replicate none) ++ Home.typeEvents ann ++ [.login] ++
      Home.saveEvents (fun _ => false) Field.all) ++
    onQuiz 1 (Quiz.fullMarks.map .input ++ [.settle 0 true, .resume 0])

theorem savedQuiz_restored :
    (machine Quiz.customData).Meets accepted (RoundTrips Quiz.customData) freshInstall
        (savedQuiz ++ onHome 2 (Home.loadEvents ann.some)) ∧
      ∃ app h, (machine Quiz.customData).run freshInstall
          (savedQuiz ++ onHome 2 (Home.loadEvents ann.some)) = some app ∧
        app.instances[2]? = some (.home h) ∧ Restored Quiz.customData app 2 h ann.some := by
  have htrips := roundTrips_of_sequential Quiz.customData (fun _ => none) none
    (savedQuiz ++ onHome 2 (Home.loadEvents ann.some)) (by decide)
    (Machine.meets_of_checks (by decide +kernel))
  refine ⟨htrips, ?_⟩
  have hend : ((machine Quiz.customData).run freshInstall
      (savedQuiz ++ onHome 2 (Home.loadEvents ann.some))).map (·.instances[2]?) =
      some (some (.home { state := { values := ann.some }, load := none })) := by decide +kernel
  obtain ⟨app, hrun, hid⟩ := Option.map_eq_some_iff.mp hend
  refine ⟨app, _, hrun, hid, ?_⟩
  have hsplit : savedQuiz ++ onHome 2 (Home.loadEvents ann.some) =
      (savedQuiz ++ onHome 2 (Home.loadEvents ann.some).dropLast) ++ [.home 2 .resumeLoad] := rfl
  have hlog : (machine Quiz.customData).log accepted freshInstall
      (savedQuiz ++ onHome 2 (Home.loadEvents ann.some).dropLast) = [ann.some] := by decide +kernel
  rw [hsplit] at hrun htrips
  obtain ⟨before, hbefore, hstep⟩ := (Machine.run_snoc _ _ _ _ _).mp hrun
  apply (htrips.last hbefore hstep).load 2 app _ _ rfl hstep hid rfl rfl
  exact (congrArg List.getLast? hlog).trans rfl

end QuizApp.App
