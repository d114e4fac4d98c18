import QuizApp.Home.Progress
import QuizApp.App.Navigation

namespace QuizApp.App

open Js
open Home (Field Profile SetData Load HomeOf StorageOf ann loadEvents)

/-- The form of a login press that `validate` accepts. -/
def accepted (app : System) : Event → List (Profile (Option JsString))
  | .home id .login =>
    match app.instances[id]? with
    | some (.home h) =>
      match Home.validate h.state with
      | .ok (true, _) => [h.state.values]
      | _ => []
    | _ => []
  | _ => []

def Event.succeeds : Event → Bool
  | .home _ (.settleSave _ ok) => ok
  | .home _ (.settleLoad .rejected) => false
  | _ => true

def SavePartWay (app : System) (id i : Nat) : Prop :=
  ∃ h s, app.instances[id]? = some (.home h) ∧ h.saves[i]? = some s ∧ s.PartWay

def LoadPartWay (app : System) (id : Nat) : Prop :=
  ∃ h l, app.instances[id]? = some (.home h) ∧ h.load = some l ∧ l.PartWay

def Saving (app : System) : Prop := ∃ id i, SavePartWay app id i

def LoadsAccepted (app : System) (profiles : List (Profile (Option JsString))) (e : Event) : Prop :=
  ∀ id h read, e = .home id .resumeLoad → app.instances[id]? = some (.home h) →
    h.loaded = some read → read ∈ profiles

def KeepsUnread (app : System) (e : Event) : Prop :=
  ∀ id h e', e = .home id e' → app.instances[id]? = some (.home h) → h.KeepsUnread e'

/-- No load is part way, and no save but the `i`th of the form `id`. -/
def StoresAlone (app : System) (id i : Nat) : Prop :=
  (∀ k, ¬ LoadPartWay app k) ∧ ∀ k j, SavePartWay app k j → k = id ∧ j = i

/-- The forms keep what the saves have still to read, the four writes of a save are not
mixed with those of another or with the reads of a load, and the session does not end
between them. -/
structure Exclusive (app : System) (_ : List (Profile (Option JsString))) (e : Event) : Prop where
  form : KeepsUnread app e
  store : ∀ id i, e = .home id (.settleSave i true) → StoresAlone app id i
  read : ∀ id reply, e = .home id (.settleLoad reply) → ¬ Saving app
  kill : e = .kill → ¬ Saving app

structure Coherent (app : System) (profiles : List (Profile (Option JsString))) : Prop where
  homes : ∀ (id : Nat) h, app.instances[id]? = some (.home h) →
    HomeOf app.storage profiles (Saving app) h
  storage : ¬ Saving app → StorageOf app.storage profiles

theorem accepted_of_valid {app : System} {id : Nat} {h : Home.Instance}
    (hid : app.instances[id]? = some (.home h))
    (hvalid : ∀ f : Field, f.check (h.state.values.get f) = .ok false) :
    accepted app (.home id .login) = [h.state.values] := by
  simp [accepted, hid, Home.validate_of_valid hvalid]

theorem Coherent.reacts {app : System} {profiles : List (Profile (Option JsString))} {id : Nat}
    {h r : Home.Instance} {e : Home.Event} {fx : List Effect}
    (hcoherent : Coherent app profiles) (hid : app.instances[id]? = some (.home h))
    (hhonest : honest app h e = true) (hr : Home.Reacts h e r fx)
    (hfx : ∀ x ∈ fx, ∃ error, x = .unhandledRejection error)
    (hok : Event.succeeds (.home id e) = true) (hex : Exclusive app profiles (.home id e)) :
    HomeOf app.storage profiles (Saving app) r ∧
      ((∃ s ∈ r.saves, s.PartWay) ↔ ∃ s ∈ h.saves, s.PartWay) := by
  have hh := hcoherent.homes id h hid
  have hkept := hh.keep ((hex.form id h e rfl hid).values hr.formStep)
  cases hr with
  | accepted => simp at hfx
  | storeItem => simp at hfx
  | failItem => cases hok
  | @saveNext i key next hi hnext =>
    refine ⟨⟨?_, hh.load⟩, Home.exists_partWay_set hi ?_⟩
    · intro s hs
      rcases List.mem_or_eq_of_mem_set hs with hs | rfl
      · exact hkept s hs
      · obtain ⟨p, hp, hsave⟩ := hkept _ (List.mem_of_getElem? hi)
        exact ⟨p, hp, hsave.next hnext⟩
    · simp [SetData.PartWay, SetData.count, Field.rank_next hnext]
  | @saveDone i key hi hnext =>
    refine ⟨⟨?_, hh.load⟩, Home.exists_partWay_eraseIdx hi ?_⟩
    · intro s hs
      exact hkept s (List.mem_of_mem_eraseIdx hs)
    · rw [Field.next_eq_none.mp hnext]
      decide
  | saveFailed hi =>
    obtain ⟨p, hp, hsave⟩ := hh.saves _ (List.mem_of_getElem? hi)
    exact absurd rfl (hsave.succeeded _)
  | @settleLoad point reply hload =>
    refine ⟨⟨hkept, ?_⟩, Iff.rfl⟩
    intro l hl
    cases hl
    have hsaving := hex.read id reply rfl
    cases reply with
    | rejected => cases hok
    | fulfilled value =>
      have hvalue : value = app.storage point.key.key := by simpa [honest, hload] using hhonest
      subst hvalue
      exact (hh.load _ hload).settle hsaving (hcoherent.storage hsaving)
  | loadNext hload hnext =>
    refine ⟨⟨hkept, ?_⟩, Iff.rfl⟩
    intro l hl
    cases hl
    exact (hh.load _ hload).next hnext
  | loadDone =>
    refine ⟨⟨?_, by simp⟩, by simp⟩
    intro s hs
    exact hkept s (by simpa using hs)
  | loadFailed hload => exact absurd rfl ((hh.load _ hload).succeeded _)
  | readDone =>
    refine ⟨⟨?_, by simpa using hh.load⟩, by simp⟩
    intro s hs
    exact hkept s (by simpa using hs)
  | _ => exact ⟨⟨hkept, hh.load⟩, Iff.rfl⟩

theorem saving_iff (app : System) :
    Saving app ↔ ∃ h, .home h ∈ app.instances ∧ ∃ s ∈ h.saves, s.PartWay := by
  constructor
  · rintro ⟨id, i, h, s, hid, hi, hs⟩
    exact ⟨h, List.mem_of_getElem? hid, s, List.mem_of_getElem? hi, hs⟩
  · rintro ⟨h, hmem, s, hsmem, hs⟩
    obtain ⟨id, hid⟩ := List.mem_iff_getElem?.mp hmem
    obtain ⟨i, hi⟩ := List.mem_iff_getElem?.mp hsmem
    exact ⟨id, i, h, s, hid, hi, hs⟩

namespace Saving

variable {app : System} {id : Nat}

theorem put_home_iff {h r : Home.Instance} (hid : app.instances[id]? = some (.home h))
    (hsame : (∃ s ∈ r.saves, s.PartWay) ↔ ∃ s ∈ h.saves, s.PartWay) :
    Saving (app.put id (.home r)) ↔ Saving app := by
  rw [saving_iff, saving_iff]
  constructor
  · rintro ⟨g, hg, hs⟩
    rcases System.mem_put hg with hg | hg
    · exact ⟨g, hg, hs⟩
    · cases hg
      exact ⟨h, List.mem_of_getElem? hid, hsame.mp hs⟩
  · rintro ⟨g, hg, hs⟩
    by_cases hgh : g = h
    · subst hgh
      exact ⟨r, System.mem_put_self hid, hsame.mpr hs⟩
    · exact ⟨g, System.mem_put_of_ne hid hg (by simpa using hgh), hs⟩

theorem put_quiz_iff {q r : Quiz.Instance} (hid : app.instances[id]? = some (.quiz q)) :
    Saving (app.put id (.quiz r)) ↔ Saving app := by
  simp only [saving_iff, System.home_mem_put_quiz hid]

theorem push_iff {i : Instance} (hi : ∀ h, i = .home h → h.saves = []) :
    Saving (app.push i) ↔ Saving app := by
  rw [saving_iff, saving_iff]
  constructor
  · rintro ⟨g, hg, s, hsmem, hs⟩
    rcases System.mem_push hg with hg | hg
    · exact ⟨g, hg, s, hsmem, hs⟩
    · rw [hi g hg.symm] at hsmem
      cases hsmem
  · rintro ⟨g, hg, hs⟩
    exact ⟨g, by simp [System.push, hg], hs⟩

end Saving

namespace Coherent

variable {app : System} {profiles : List (Profile (Option JsString))} {id : Nat}

theorem of_same {app' : System} (h : Coherent app profiles) (m : List (Profile (Option JsString)))
    (hstorage : app'.storage = app.storage) (hsaving : Saving app' ↔ Saving app)
    (hhomes : ∀ (k : Nat) g, app'.instances[k]? = some (.home g) →
      app.instances[k]? = some (.home g) ∨ HomeOf app.storage (profiles ++ m) (Saving app) g) :
    Coherent app' (profiles ++ m) where
  homes k g hg := by
    rw [hstorage]
    rcases hhomes k g hg with hg | hg
    · exact (h.homes k g hg).mono hsaving.mp
    · simpa using hg.mono (m := []) hsaving.mp
  storage hnot := by
    rw [hstorage]
    rcases h.storage (fun hs => hnot (hsaving.mpr hs)) with hnone | ⟨p, hp, hst⟩
    · exact .inl hnone
    · exact .inr ⟨p, List.mem_append_left m hp, hst⟩

theorem put_home (h : Coherent app profiles) {g r : Home.Instance}
    (hid : app.instances[id]? = some (.home g)) (m : List (Profile (Option JsString)))
    (hr : HomeOf app.storage (profiles ++ m) (Saving app) r)
    (hsame : (∃ s ∈ r.saves, s.PartWay) ↔ ∃ s ∈ g.saves, s.PartWay) :
    Coherent (app.put id (.home r)) (profiles ++ m) := by
  refine h.of_same m rfl (Saving.put_home_iff hid hsame) ?_
  intro k g' hk
  rcases System.getElem?_put hid hk with ⟨-, heq⟩ | ⟨-, hk⟩
  · cases heq
    exact .inr hr
  · exact .inl hk

theorem put_quiz (h : Coherent app profiles) {q r : Quiz.Instance}
    (hid : app.instances[id]? = some (.quiz q)) (m : List (Profile (Option JsString))) :
    Coherent (app.put id (.quiz r)) (profiles ++ m) := by
  refine h.of_same m rfl (Saving.put_quiz_iff hid) ?_
  intro k g hk
  rcases System.getElem?_put hid hk with ⟨-, heq⟩ | ⟨-, hk⟩
  · cases heq
  · exact .inl hk

theorem push (h : Coherent app profiles) {i : Instance} (hi : ∀ g, i = .home g → g = {}) :
    Coherent (app.push i) profiles := by
  have hnil : ∀ g, i = .home g → g.saves = [] := by
    intro g hg
    rw [hi g hg]
  rw [← List.append_nil profiles]
  refine h.of_same [] rfl (Saving.push_iff hnil) ?_
  intro k g hk
  rcases System.getElem?_push hk with hk | heq
  · exact .inl hk
  · cases hi g heq.symm
    exact .inr (.fresh _ _ _)

theorem boot {storage : Storage} (file : Option JsString) (h : StorageOf storage profiles) :
    Coherent (boot storage file) profiles where
  homes k g hg := by
    have hmem := List.mem_of_getElem? hg
    simp only [App.boot, List.mem_singleton, Instance.home.injEq] at hmem
    subst hmem
    exact .fresh _ _ _
  storage _ := h

theorem login (h : Coherent app profiles) {g : Home.Instance}
    (hid : app.instances[id]? = some (.home g)) :
    Coherent (app.put id (.home { g with saves := g.saves ++ [Home.setData g.state] }))
      (profiles ++ [g.state.values]) := by
  have hg : HomeOf app.storage (profiles ++ [g.state.values]) (Saving app) g :=
    (h.homes id g hid).mono fun hs => hs
  refine h.put_home hid _ ⟨?_, hg.load⟩ ?_
  · intro s hs
    rcases List.mem_append.mp hs with hs | hs
    · exact hg.saves s hs
    · cases List.mem_singleton.mp hs
      exact ⟨g.state.values, by simp, .start _ _⟩
  · have hstart : ¬ (Home.setData g.state).PartWay := fun hp => Nat.lt_irrefl 0 hp.1
    simp [or_and_right, exists_or, hstart]

theorem store (h : Coherent app profiles) {g : Home.Instance} {i : Nat} {key : Field} {v : JsString}
    (hid : app.instances[id]? = some (.home g)) (hi : g.saves[i]? = some (.calling key (some v)))
    (hload : ∀ k, ¬ LoadPartWay app k) (hsave : ∀ k j, SavePartWay app k j → k = id ∧ j = i) :
    Coherent { app.put id (.home { g with saves := g.saves.set i (.settled key true) }) with
      storage := app.storage.setItem key.key v } profiles := by
  obtain ⟨p, hp, hof⟩ := (h.homes id g hid).saves _ (List.mem_of_getElem? hi)
  obtain ⟨hlt, -⟩ := List.getElem?_eq_some_iff.mp hi
  have hother : ∀ (k j : Nat) g' s, app.instances[k]? = some (.home g') → g'.saves[j]? = some s →
      (k ≠ id ∨ j ≠ i) →
      ∃ p ∈ profiles, Home.SaveOf (app.storage.setItem key.key v) g'.state.values p s := by
    intro k j g' s hk hj hne
    obtain ⟨p', hp', hof'⟩ := (h.homes k g' hk).saves s (List.mem_of_getElem? hj)
    refine ⟨p', hp', hof'.other fun hpart => ?_⟩
    obtain ⟨rfl, rfl⟩ := hsave k j ⟨g', s, hk, hj, hpart⟩
    exact hne.elim (· rfl) (· rfl)
  have hloads : ∀ (k : Nat) g' l (saving : Prop), app.instances[k]? = some (.home g') →
      g'.load = some l → Home.LoadOf (app.storage.setItem key.key v) profiles saving l := by
    intro k g' l saving hk hl
    exact ((h.homes k g' hk).load l hl).other fun hpart => hload k ⟨g', l, hk, hl, hpart⟩
  refine ⟨?_, ?_⟩
  · intro k g' hk
    rcases System.getElem?_put hid hk with ⟨rfl, heq⟩ | ⟨hkid, hk⟩
    · cases heq
      refine ⟨?_, fun l hl => hloads k g l _ hid hl⟩
      intro s hs
      obtain ⟨j, hj⟩ := List.mem_iff_getElem?.mp hs
      by_cases hij : i = j
      · subst hij
        rw [List.getElem?_set_self hlt] at hj
        cases hj
        exact ⟨p, hp, hof.store.1⟩
      · rw [List.getElem?_set_ne hij] at hj
        exact hother k j g s hid hj (.inr (Ne.symm hij))
    · refine ⟨?_, fun l hl => hloads k g' l _ hk hl⟩
      intro s hs
      obtain ⟨j, hj⟩ := List.mem_iff_getElem?.mp hs
      exact hother k j g' s hk hj (.inl hkid)
  · intro hnot
    have hdone : ¬ (SetData.settled key true).PartWay := by
      intro hpart
      apply hnot
      exact ⟨id, i, _, _, System.put_self hid, List.getElem?_set_self hlt, hpart⟩
    refine .inr ⟨p, hp, fun f => hof.store.2 f ?_⟩
    have hfour : ¬ key.rank + 1 < 4 := fun hlt => hdone ⟨Nat.succ_pos _, hlt⟩
    have := f.rank_lt
    omega

theorem step {customData : Quiz.CustomData} {app' : System} {e : Event} (h : Coherent app profiles)
    (hex : Exclusive app profiles e) (hok : e.succeeds = true) (hst : Steps customData app e app') :
    Coherent app' (profiles ++ accepted app e) := by
  cases hst with
  | home hid hhonest _ hr hfx =>
    obtain ⟨hhome, hsame⟩ := h.reacts hid hhonest hr hfx hok hex
    exact h.put_home hid _ (hhome.mono id) hsame
  | storeItem hid hr =>
    obtain ⟨hi, rfl⟩ := Home.reacts_storeItem hr
    obtain ⟨hload, hsave⟩ := hex.store _ _ rfl
    simpa [accepted] using h.store hid hi hload hsave
  | @login id g r s hid hr =>
    cases hr with
    | accepted _ hvalid =>
      rw [accepted_of_valid hid hvalid]
      have hpush := (h.login hid).push (i := .quiz { state := s }) (by simp)
      exact ⟨hpush.homes, hpush.storage⟩
  | quiz hid => exact h.put_quiz hid _
  | storeFile hid =>
    exact ⟨(h.put_quiz hid []).homes, (h.put_quiz hid []).storage⟩
  | leave hid => exact (h.put_quiz hid _).push (by simp)
  | unmount hid =>
    exact ⟨(h.put_quiz hid []).homes, (h.put_quiz hid []).storage⟩
  | back => simpa [accepted] using h
  | kill => simpa [accepted] using boot app.file (h.storage (hex.kill rfl))

end Coherent

theorem Coherent.loadsAccepted {app : System} {profiles : List (Profile (Option JsString))}
    {e : Event} (h : Coherent app profiles) : LoadsAccepted app profiles e := by
  rintro id g read rfl hid hread
  obtain ⟨point, value, hload, hresume, hfound⟩ := Home.Instance.loaded_eq_some hread
  obtain ⟨hrank, rfl⟩ := Home.GetData.resume_inr hresume
  have hcount : (Load.settled point (.fulfilled value)).count = 4 := congrArg (· + 1) hrank
  rcases ((h.homes id g hid).load _ hload).whole hcount with hnone | hmem
  · rw [show point.got.set point.key value = .replicate none from hnone] at hfound
    simp [Home.Found, Profile.replicate] at hfound
  · exact hmem

/-- With every storage call succeeding and no save disturbed, what a load puts into a form
is the whole form of one accepted login. -/
theorem loads_accepted_of_exclusive (customData : Quiz.CustomData) (es : List Event)
    (hok : ∀ e ∈ es, e.succeeds = true)
    (hex : (machine customData).Meets accepted Exclusive freshInstall es) :
    (machine customData).Meets accepted LoadsAccepted freshInstall es := by
  refine hex.mem.imp (K := Coherent) (.boot none (.inl fun _ => rfl)) ?_ ?_
  · rintro app profiles e app' hcoherent ⟨hex, he⟩ hst
    exact hcoherent.step hex (hok e he) (steps_of_step hst)
  · intro app profiles e app' hcoherent _ _
    exact hcoherent.loadsAccepted

instance (app : System) (e : Event) : Decidable (KeepsUnread app e) :=
  match e with
  | .home id e' =>
    decidable_of_iff (∀ h, app.instances[id]? = some (.home h) → h.KeepsUnread e')
      ⟨by rintro hk _ h _ ⟨⟩; exact hk h, fun hk h => hk id h e' rfl⟩
  | .quiz _ _ | .back | .kill => isTrue (by simp [KeepsUnread])

instance (app : System) : Decidable (Saving app) :=
  decidable_of_iff (¬ ∀ h, .home h ∈ app.instances → ∀ s ∈ h.saves, ¬ s.PartWay)
    (by simp [saving_iff])

theorem storesAlone_iff (app : System) (id i : Nat) :
    ((∀ h, .home h ∈ app.instances → ∀ l ∈ h.load, ¬ l.PartWay) ∧
      ∀ x ∈ app.instances.zipIdx, ∀ h, x.1 = .home h → ∀ y ∈ h.saves.zipIdx, y.1.PartWay →
        x.2 = id ∧ y.2 = i) ↔ StoresAlone app id i := by
  constructor
  · rintro ⟨hload, hsave⟩
    refine ⟨?_, ?_⟩
    · rintro k ⟨h, l, hk, hl, hpart⟩
      exact hload h (List.mem_of_getElem? hk) l hl hpart
    · rintro k j ⟨h, s, hk, hj, hpart⟩
      exact hsave _ (List.mk_mem_zipIdx_iff_getElem?.mpr hk) h rfl _
        (List.mk_mem_zipIdx_iff_getElem?.mpr hj) hpart
  · rintro ⟨hload, hsave⟩
    refine ⟨?_, ?_⟩
    · intro h hh l hl hpart
      obtain ⟨k, hk⟩ := List.mem_iff_getElem?.mp hh
      exact hload k ⟨h, l, hk, hl, hpart⟩
    · rintro ⟨_, k⟩ hk h rfl ⟨s, j⟩ hj hpart
      exact hsave k j ⟨h, s, List.mk_mem_zipIdx_iff_getElem?.mp hk,
        List.mk_mem_zipIdx_iff_getElem?.mp hj, hpart⟩

instance (app : System) (id i : Nat) : Decidable (StoresAlone app id i) :=
  decidable_of_iff _ (storesAlone_iff app id i)

theorem exclusive_iff (app : System) (l : List (Profile (Option JsString))) (e : Event) :
    (KeepsUnread app e ∧ (match e with
      | .home id (.settleSave i true) => decide (StoresAlone app id i)
      | .home _ (.settleLoad _) | .kill => decide (¬ Saving app)
      | _ => true) = true) ↔ Exclusive app l e := by
  constructor
  · rintro ⟨hform, h⟩
    refine ⟨hform, ?_, ?_, ?_⟩
    · rintro id i rfl
      exact of_decide_eq_true h
    · rintro id reply rfl
      exact of_decide_eq_true h
    · rintro rfl
      exact of_decide_eq_true h
  · intro h
    refine ⟨h.form, ?_⟩
    split
    · exact decide_eq_true (h.store _ _ rfl)
    · exact decide_eq_true (h.read _ _ rfl)
    · exact decide_eq_true (h.kill rfl)
    · rfl

instance (app : System) (l : List (Profile (Option JsString))) (e : Event) :
    Decidable (Exclusive app l e) := decidable_of_iff _ (exclusive_iff app l e)

def saveThenLoad : List Event :=
  attempt 0 1 ++ onHome 0 (Home.saveEvents (fun _ => false) Field.all) ++
    onQuiz 1 [.settle 0 true, .resume 0] ++ onHome 2 (loadEvents ann.some)

theorem saveThenLoad_loads_accepted :
    ((machine Quiz.customData).run freshInstall saveThenLoad).map (·.instances[2]?) =
        some (some (.home { state := { values := ann.some }, load := none })) ∧
      (machine Quiz.customData).Meets accepted LoadsAccepted freshInstall saveThenLoad := by
  refine ⟨by decide +kernel, ?_⟩
  apply loads_accepted_of_exclusive Quiz.customData saveThenLoad (by decide)
  exact Machine.meets_of_checks (by decide +kernel)

def torn : Profile (Option JsString) := ann.some.set .lastName (some [])

/-- The last name is deleted on the replaced `HomeScreen` while the save of the accepted
form is at its first key. -/
def editDuringSave : List Event :=
  attempt 0 1 ++ onHome 0 [.settleSave 0 true, .edit .lastName (some []), .resumeSave 0] ++
    onHome 0 (Home.saveEvents (fun _ => false) [.lastName, .nickName, .age]) ++
    onQuiz 1 [.settle 0 true, .resume 0] ++ onHome 2 (loadEvents torn).dropLast

theorem edit_during_save_is_loaded :
    (∀ e ∈ editDuringSave ++ [.home 2 .resumeLoad], e.succeeds = true) ∧
      ¬ (machine Quiz.customData).Meets accepted LoadsAccepted freshInstall
        (editDuringSave ++ [.home 2 .resumeLoad]) := by
  refine ⟨by decide, ?_⟩
  intro h
  have hend : ((machine Quiz.customData).run freshInstall
      (editDuringSave ++ [.home 2 .resumeLoad])).isSome := by decide +kernel
  have hload : ((machine Quiz.customData).run freshInstall editDuringSave).map (·.instances[2]?) =
      some (some (.home { load := some (.settled (.age torn.firstName torn.lastName torn.nickName)
        (.fulfilled torn.age)) })) := by decide +kernel
  have hlog : (machine Quiz.customData).log accepted freshInstall editDuringSave = [ann.some] := by
    decide +kernel
  obtain ⟨app', hrun'⟩ := Option.isSome_iff_exists.mp hend
  obtain ⟨app, hrun, hst⟩ := (Machine.run_snoc _ _ _ _ _).mp hrun'
  rw [hrun, Option.map_some, Option.some.injEq] at hload
  have hmem := h.last hrun hst 2 _ torn rfl hload (by decide)
  rw [hlog] at hmem
  exact absurd hmem (by decide)

end QuizApp.App
