import QuizApp.Lists.Layers
import QuizApp.Machine.Refine
import QuizApp.App.RoundTrip
import QuizApp.App.Sessions

namespace QuizApp.App

open Js
open Home (Field Profile SetData)
open Quiz (Bank)

instance : PartialOrder Field := PartialOrder.lift Field.rank Home.Field.rank_injective

structure Writes (p : Profile (Option JsString)) (new : Field → Prop)
    (values : Profile (Option JsString)) (s : SetData) : Prop extends Home.Reading values p s where
  done : ∀ f : Field, f.rank < s.count → new f

def Writing (last : Option (Profile (Option JsString))) (new : Field → Prop) (h : Home.Instance) :
    Prop :=
  ∀ s ∈ h.saves, ∃ p, last = some p ∧ Writes p new h.state.values s

/-- A login is accepted only while no save is under way, and a form keeps the fields that a
save of it has still to read. -/
structure OneSave (app : System) (e : Event) : Prop where
  login : accepted app e ≠ [] → NoSaves app
  form : KeepsUnread app e

instance (app : System) (e : Event) : Decidable (OneSave app e) :=
  decidable_of_iff ((accepted app e ≠ [] → NoSaves app) ∧ KeepsUnread app e)
    ⟨fun h => ⟨h.1, h.2⟩, fun h => ⟨h.login, h.form⟩⟩

def versions (storage : Storage) (l : List (Profile (Option JsString))) :
    List (Field → Option JsString) :=
  (fun f => storage f.key) :: l.map Profile.get

structure Torn (storage : Storage) (app : System) (l : List (Profile (Option JsString)))
    (stage : Field → Nat) : Prop where
  layered : Layered (versions storage l) (fun f => app.storage f.key) stage
  saves : ∀ h, .home h ∈ app.instances → Writing l.getLast? (fun f => stage f = l.length) h

namespace Writes

variable {p values : Profile (Option JsString)} {new : Field → Prop}

theorem keep {values' : Profile (Option JsString)} {s : SetData} (h : Writes p new values s)
    (hvalues : ∀ f : Field, s.key.rank < f.rank → values'.get f = values.get f) :
    Writes p new values' s where
  toReading := h.toReading.keep hvalues
  done := h.done

theorem imp {new' : Field → Prop} {s : SetData} (h : Writes p new values s)
    (hnew : ∀ f, new f → new' f) : Writes p new' values s where
  toReading := h.toReading
  done f hf := hnew f (h.done f hf)

theorem start (s : Home.State) (new : Field → Prop) :
    Writes s.values new s.values (Home.setData s) where
  toReading := .start s
  done _ hf := absurd hf (Nat.not_lt_zero _)

theorem fail {key : Field} {value : Option JsString} (h : Writes p new values (.calling key value)) :
    Writes p new values (.settled key false) where
  toReading := h.toReading.settle false
  done := h.done

theorem store {key : Field} {value : Option JsString} (h : Writes p new values (.calling key value))
    (hkey : new key) : Writes p new values (.settled key true) where
  toReading := h.toReading.settle true
  done f hf := by
    by_cases hf' : f = key
    · exact hf' ▸ hkey
    · have hne : f.rank ≠ key.rank := fun heq => hf' (Home.Field.rank_injective heq)
      simp only [SetData.count, Bool.toNat_true] at hf
      exact h.done f (by simp only [SetData.count]; omega)

theorem next {key next : Field} (h : Writes p new values (.settled key true))
    (hnext : key.next = some next) : Writes p new values (.calling next (values.get next)) where
  toReading := h.toReading.next hnext
  done f hf := by
    apply h.done
    simpa [SetData.count, Home.Field.rank_next hnext] using hf

end Writes

namespace Writing

variable {last : Option (Profile (Option JsString))} {new : Field → Prop} {h r : Home.Instance}

theorem of_nil (hnil : h.saves = []) : Writing last new h := by
  intro s hs
  rw [hnil] at hs
  cases hs

theorem set (hh : Writing last new h) {i : Nat} {s : SetData}
    (hs : ∃ p, last = some p ∧ Writes p new h.state.values s) :
    Writing last new { h with saves := h.saves.set i s } := by
  intro x hx
  rcases List.mem_or_eq_of_mem_set hx with hx | rfl
  · exact hh x hx
  · exact hs

theorem erase (hh : Writing last new h) (i : Nat) :
    Writing last new { h with saves := h.saves.eraseIdx i } :=
  fun s hs => hh s (List.mem_of_mem_eraseIdx hs)

theorem keep (hh : Writing last new h) (hsaves : r.saves = h.saves)
    (hvalues : ∀ s ∈ h.saves, ∀ f : Field, s.key.rank < f.rank →
      r.state.values.get f = h.state.values.get f) : Writing last new r := by
  intro s hs
  rw [hsaves] at hs
  obtain ⟨p, hp, hw⟩ := hh s hs
  exact ⟨p, hp, hw.keep (hvalues s hs)⟩

theorem reacts {e : Home.Event} {fx : List Effect} (hh : Writing last new h)
    (hr : Home.Reacts h e r fx) (hfx : ∀ x ∈ fx, ∃ error, x = .unhandledRejection error)
    (hvalues : ∀ s ∈ h.saves, ∀ f : Field, s.key.rank < f.rank →
      r.state.values.get f = h.state.values.get f) : Writing last new r := by
  cases hr with
  | accepted => simp at hfx
  | storeItem => simp at hfx
  | failItem hi =>
    obtain ⟨p, hp, hw⟩ := hh _ (List.mem_of_getElem? hi)
    exact hh.set ⟨p, hp, hw.fail⟩
  | saveNext hi hnext =>
    obtain ⟨p, hp, hw⟩ := hh _ (List.mem_of_getElem? hi)
    exact hh.set ⟨p, hp, hw.next hnext⟩
  | saveDone => exact hh.erase _
  | saveFailed => exact hh.erase _
  | loadDone => exact hh.keep (by simp) hvalues
  | readDone => exact hh.keep (by simp) hvalues
  | _ => exact hh.keep rfl hvalues

end Writing

namespace Torn

variable {storage : Storage} {customData : Quiz.CustomData} {app app' : System}
  {l : List (Profile (Option JsString))} {stage : Field → Nat} {id : Nat}

theorem boot (storage : Storage) (file : Option JsString) :
    Torn storage (boot storage file) [] fun _ => 0 where
  layered := .first _
  saves h hh := .of_nil (NoSaves.boot _ _ h hh)

theorem restart {file : Option JsString} (ht : Torn storage app l stage) :
    Torn storage (App.boot app.storage file) l stage where
  layered := ht.layered
  saves h hh := .of_nil (NoSaves.boot _ _ h hh)

theorem of_homes (ht : Torn storage app l stage)
    (hhomes : ∀ h, .home h ∈ app'.instances → .home h ∈ app.instances ∨ h.saves = [])
    (hstorage : app'.storage = app.storage) : Torn storage app' l stage where
  layered := hstorage ▸ ht.layered
  saves h hh := by
    rcases hhomes h hh with hh | hnil
    · exact ht.saves h hh
    · exact .of_nil hnil

theorem home (ht : Torn storage app l stage) {h r : Home.Instance} {e : Home.Event}
    {fx : List Effect} (hid : app.instances[id]? = some (.home h)) (hr : Home.Reacts h e r fx)
    (hfx : ∀ x ∈ fx, ∃ error, x = .unhandledRejection error)
    (hone : OneSave app (.home id e)) : Torn storage (app.put id (.home r)) l stage where
  layered := ht.layered
  saves := by
    refine System.forall_home_put ht.saves ?_
    refine (ht.saves h (List.mem_of_getElem? hid)).reacts hr hfx ?_
    exact (hone.form id h e rfl hid).values hr.formStep

theorem newest {p : Profile (Option JsString)} (hlast : l.getLast? = some p) (storage : Storage) :
    (versions storage l)[l.length]? = some p.get := by
  rw [List.getLast?_eq_getElem?] at hlast
  cases l with
  | nil => cases hlast
  | cons q l =>
    rw [versions, List.length_cons, List.getElem?_cons_succ, List.getElem?_map]
    exact congrArg (Option.map Profile.get) hlast

theorem store (ht : Torn storage app l stage) {h : Home.Instance} {i : Nat} {key : Field}
    {v : JsString} (hid : app.instances[id]? = some (.home h))
    (hi : h.saves[i]? = some (.calling key (some v))) :
    Torn storage { app.put id (.home { h with saves := h.saves.set i (.settled key true) }) with
      storage := app.storage.setItem key.key v } l (Function.update stage key l.length) := by
  have hmem := List.mem_of_getElem? hid
  obtain ⟨p, hlast, hw⟩ := ht.saves h hmem _ (List.mem_of_getElem? hi)
  have hnew : ∀ f, stage f = l.length → Function.update stage key l.length f = l.length := by
    intro f hf
    by_cases hkey : f = key
    · rw [hkey, Function.update_self]
    · rw [Function.update_of_ne hkey, hf]
  have hsaves : ∀ g, .home g ∈ app.instances →
      Writing l.getLast? (fun f => Function.update stage key l.length f = l.length) g := by
    intro g hg s hs
    obtain ⟨p, hp, hw⟩ := ht.saves g hg s hs
    exact ⟨p, hp, hw.imp hnew⟩
  refine ⟨?_, ?_⟩
  · have hstore : (fun f : Field => app.storage.setItem key.key v f.key) =
        Function.update (fun f : Field => app.storage f.key) key (p.get key) := by
      funext f
      rw [← hw.value key _ rfl]
      by_cases hkey : f = key
      · subst hkey
        rw [Function.update_self, Storage.setItem, Function.update_self]
      · rw [Function.update_of_ne hkey, Storage.setItem,
          Function.update_of_ne fun heq => hkey (Home.Field.key_injective heq)]
    change Layered _ (fun f : Field => app.storage.setItem key.key v f.key) _
    rw [hstore]
    apply ht.layered.write (by simp [versions]) (newest hlast storage)
    intro f hf
    exact hw.done f hf
  · refine System.forall_home_put hsaves ?_
    refine (hsaves h hmem).set ⟨p, hlast, (hw.imp hnew).store ?_⟩
    exact Function.update_self _ _ _

theorem login (ht : Torn storage app l stage) {h : Home.Instance}
    (hid : app.instances[id]? = some (.home h)) (hno : NoSaves app) :
    Torn storage (app.put id (.home { h with saves := h.saves ++ [Home.setData h.state] }))
      (l ++ [h.state.values]) stage where
  layered := by
    have hversions : versions storage (l ++ [h.state.values]) =
        versions storage l ++ [h.state.values.get] := by simp [versions]
    rw [hversions]
    exact ht.layered.append _
  saves := by
    refine System.forall_home_put (fun g hg => .of_nil (hno g hg)) ?_
    intro s hs
    rw [hno h (List.mem_of_getElem? hid), List.nil_append, List.mem_singleton] at hs
    subst hs
    exact ⟨h.state.values, by simp, .start _ _⟩

theorem step {e : Event} (ht : Torn storage app l stage) (hone : OneSave app e)
    (hst : Steps customData app e app') :
    ∃ stage', Torn storage app' (l ++ accepted app e) stage' := by
  cases hst with
  | home hid _ _ hr hfx =>
    rw [accepted_of_quiet hid hr hfx, List.append_nil]
    exact ⟨stage, ht.home hid hr hfx hone⟩
  | storeItem hid hr =>
    obtain ⟨hi, rfl⟩ := Home.reacts_storeItem hr
    exact ⟨_, by simpa [accepted] using ht.store hid hi⟩
  | login hid hr =>
    cases hr with
    | accepted _ hvalid =>
      have haccepted := accepted_of_valid hid hvalid
      rw [haccepted]
      have hno := hone.login (by simp [haccepted])
      exact ⟨stage, (ht.login hid hno).of_homes (fun g hg => .inl (by simpa [System.push] using hg)) rfl⟩
  | quiz hid =>
    rw [accepted_quiz, List.append_nil]
    exact ⟨stage, ht.of_homes (fun h hh => .inl ((System.home_mem_put_quiz hid h).mp hh)) rfl⟩
  | storeFile hid =>
    rw [accepted_quiz, List.append_nil]
    exact ⟨stage, ht.of_homes (fun h hh => .inl ((System.home_mem_put_quiz hid h).mp hh)) rfl⟩
  | leave hid =>
    rw [accepted_quiz, List.append_nil]
    refine ⟨stage, ht.of_homes ?_ rfl⟩
    intro h hh
    rcases System.mem_push hh with hh | heq
    · exact .inl ((System.home_mem_put_quiz hid h).mp hh)
    · cases heq
      exact .inr rfl
  | unmount hid =>
    rw [accepted_quiz, List.append_nil]
    exact ⟨stage, ht.of_homes (fun h hh => .inl ((System.home_mem_put_quiz hid h).mp hh)) rfl⟩
  | back => exact ⟨stage, by simpa [accepted] using ht⟩
  | kill => exact ⟨stage, by simpa [accepted] using ht.restart⟩

end Torn

def Valid (p : Profile (Option JsString)) : Prop :=
  ∀ f : Field, f.check (p.get f) = .ok false

theorem valid_of_mem_accepted {app : System} {e : Event} {p : Profile (Option JsString)}
    (hp : p ∈ accepted app e) : Valid p := by
  unfold accepted at hp
  split at hp
  · split at hp
    · rename_i h _
      split at hp
      · rename_i hok
        cases List.mem_singleton.mp hp
        obtain ⟨faults, hf⟩ := Home.exists_checks (Home.strings_of_validate hok)
        rw [Home.validate_of_checks hf] at hok
        cases hfault : faults.hasFault with
        | true => simp [hfault] at hok
        | false =>
          intro f
          rw [hf f, Home.Profile.hasFault_eq_false.mp hfault f]
      · cases hp
    · cases hp
  · cases hp

section Runs

variable {customData : Quiz.CustomData} {storage : Storage} {file : Option JsString}
  {es : List Event} {app : System}

theorem accepted_valid (hrun : (machine customData).run (boot storage file) es = some app) :
    ∀ p ∈ (machine customData).log accepted (boot storage file) es, Valid p := by
  apply Machine.run_invariant (K := fun _ l => ∀ p ∈ l, Valid p) (by simp) ?_ hrun
  intro app l e app' hl _ p hp
  rcases List.mem_append.mp hp with hp | hp
  · exact hl p hp
  · exact valid_of_mem_accepted hp

theorem exists_torn (hrun : (machine customData).run (boot storage file) es = some app)
    (hone : (machine customData).Along OneSave (boot storage file) es) :
    ∃ stage, Torn storage app ((machine customData).log accepted (boot storage file) es) stage :=
  hone.invariant (K := fun app l => ∃ stage, Torn storage app l stage) ⟨_, .boot storage file⟩
    (fun _ _ _ _ ⟨_, ht⟩ hone hst => ht.step hone (steps_of_step hst)) hrun

end Runs

theorem OneSave.of_noSaves {app : System} (hno : NoSaves app) (e : Event) : OneSave app e where
  login _ := hno
  form _ h e' _ hid := .of_nil (hno h (List.mem_of_getElem? hid)) e'

theorem OneSave.of_save (app : System) (id : Nat) {e : Home.Event} (he : ofSave e = true) :
    OneSave app (.home id e) := by
  cases e with
  | settleSave | resumeSave =>
    refine ⟨by simp [accepted], ?_⟩
    rintro _ h _ ⟨⟩ _
    exact ⟨by simp, by simp⟩
  | _ => cases he

theorem NoSaves.edit {customData : Quiz.CustomData} {app app' : System} {id : Nat} {f : Field}
    {v : Option JsString} (hno : NoSaves app) (hst : Steps customData app (.home id (.edit f v)) app') :
    NoSaves app' := by
  refine forall_homes_step (P := fun h => h.saves = []) hst rfl ?_ hno
  rintro _ h r _ _ ⟨⟩ _ _ hr hnil
  cases hr
  exact hnil

def tornSession (p : Profile JsString) (fails : Field → Bool) : List Event :=
  startQuiz p ++ onHome 0 (Home.saveEvents fails Field.all)

theorem ofSave_saveEvents (fails : Field → Bool) (fs : List Field) :
    ∀ e ∈ Home.saveEvents fails fs, ofSave e = true := by
  induction fs with
  | nil => simp [Home.saveEvents]
  | cons f fs ih =>
    intro e he
    simp only [Home.saveEvents, List.mem_cons] at he
    rcases he with rfl | rfl | he
    · rfl
    · rfl
    · split at he
      · cases he
      · exact ih e he

theorem rank_lt_findIdx (fails : Field → Bool) (f : Field) :
    f.rank < Field.all.findIdx fails ↔ ∀ g ≤ f, fails g = false := by
  have hrank : ∀ g : Field, Field.all[g.rank]? = some g := by
    intro g
    cases g <;> rfl
  rw [List.lt_findIdx_iff]
  constructor
  · rintro ⟨_, h⟩ g hg
    obtain ⟨hlt, heq⟩ := List.getElem?_eq_some_iff.mp (hrank g)
    rw [← heq]
    exact h g.rank hg
  · intro h
    refine ⟨f.rank_lt, ?_⟩
    intro j hj
    obtain ⟨g, rfl⟩ : ∃ g : Field, g.rank = j := by
      have := f.rank_lt
      match j with
      | 0 => exact ⟨.firstName, rfl⟩
      | 1 => exact ⟨.lastName, rfl⟩
      | 2 => exact ⟨.nickName, rfl⟩
      | 3 => exact ⟨.age, rfl⟩
      | j + 4 => omega
    obtain ⟨hlt, heq⟩ := List.getElem?_eq_some_iff.mp (hrank g)
    rw [heq]
    exact h g hj

section Session

variable {N : Nat} (b : Bank N) (app : System) {p : Profile JsString} (fails : Field → Bool)

theorem run_tornSession (hvalid : Valid p.some) :
    ∃ app', (machine b.customData).run app (tornSession p fails) = some app' ∧
      ∀ f : Field, app'.storage f.key =
        if f.rank < Field.all.findIdx fails then p.some.get f else app.storage f.key := by
  let saving : Home.Instance :=
    { state := { values := p.some }, saves := [Home.setData { values := p.some }] }
  obtain ⟨started, hstart, hid, hsame⟩ : ∃ started,
      (machine b.customData).run app (startQuiz p) = some started ∧
        started.instances[0]? = some (.home saving) ∧ started.storage = app.storage :=
    ⟨_, run_startQuiz b app hvalid, rfl, rfl⟩
  have hstrings : saving.state.Strings := Home.strings_of_checks hvalid
  obtain ⟨hsaves, hstorage⟩ := Home.setDataAlone_eq_run rfl hstrings fails app.storage
  obtain ⟨stored, hsave, hstored⟩ : ∃ stored,
      (machine b.customData).run started (onHome 0 (Home.saveEvents fails Field.all)) =
        some stored ∧ stored.storage = (Home.setDataAlone saving.state fails app.storage).2 := by
    refine ⟨_, run_saves hid (ofSave_saveEvents fails Field.all) hsaves, ?_⟩
    rw [hstorage, hsame]
  refine ⟨stored, ?_, ?_⟩
  · rw [tornSession, Machine.run_append, hstart, Option.bind_some, hsave]
  · intro f
    rw [hstored, Home.setDataAlone_key hstrings]

theorem along_tornSession (hvalid : Valid p.some) :
    (machine b.customData).Along OneSave app (tornSession p fails) := by
  refine Machine.Along.append ?_ (run_startQuiz b app hvalid) ?_
  · refine .cons ⟨by simp [accepted], by simp [KeepsUnread]⟩ ?_
    rintro _ ⟨⟩
    rw [onHome, List.map_append]
    refine .of_keeps (NoSaves.boot _ _) ?_ (fun _ e hno => .of_noSaves hno e) _
    intro e he t u hno hstep
    obtain ⟨x, hx, rfl⟩ := List.mem_map.mp he
    obtain ⟨f, v, rfl⟩ : ∃ f v, x = .edit f v := by
      simp only [Home.typeEvents, List.mem_cons, List.not_mem_nil, or_false] at hx
      rcases hx with rfl | rfl | rfl | rfl <;> exact ⟨_, _, rfl⟩
    exact hno.edit (steps_of_step hstep)
  · apply Machine.Along.of_forall
    intro e he app'
    obtain ⟨x, hx, rfl⟩ := List.mem_map.mp he
    exact .of_save app' 0 (ofSave_saveEvents fails Field.all x hx)

theorem log_tornSession (hvalid : Valid p.some) :
    (machine b.customData).log accepted app (tornSession p fails) = [p.some] := by
  have hstart : (machine b.customData).log accepted app (startQuiz p) = [p.some] := by
    have hlog := Machine.log_snoc _ accepted _ (.home 0 .login) (run_typed b app p)
    have hid : ((boot app.storage app.file).put 0
        (.home { state := { values := p.some } })).instances[0]? =
        some (.home { state := { values := p.some } }) := rfl
    rw [accepted_of_valid hid hvalid] at hlog
    exact hlog
  rw [tornSession, Machine.log_append _ _ _ _ (run_startQuiz b app hvalid), hstart,
    Machine.log_eq_nil, List.append_nil]
  intro e he app'
  obtain ⟨x, hx, rfl⟩ := List.mem_map.mp he
  have hsave := ofSave_saveEvents fails Field.all x hx
  cases x with
  | login => cases hsave
  | _ => rfl

end Session

theorem exists_layered {N : Nat} (b : Bank N) (storage : Storage) (file : Option JsString)
    {l : List (Profile (Option JsString))} (hvalid : ∀ p ∈ l, Valid p)
    {content : Field → Option JsString} {stage : Field → Nat}
    (h : Layered (versions storage l) content stage) :
    ∃ es app, (machine b.customData).run (boot storage file) es = some app ∧
      (machine b.customData).Along OneSave (boot storage file) es ∧
      (machine b.customData).log accepted (boot storage file) es = l ∧
      ∀ f : Field, app.storage f.key = content f := by
  induction l using List.reverseRecOn generalizing content stage with
  | nil =>
    refine ⟨[], _, rfl, Machine.along_nil _ _ _, rfl, ?_⟩
    intro f
    obtain ⟨v, hv, hf⟩ := h.version f
    cases List.mem_singleton.mp (List.mem_of_getElem? hv)
    exact hf
  | append_singleton l p ih =>
    have hversions : versions storage (l ++ [p]) = versions storage l ++ [p.get] := by
      simp [versions]
    rw [hversions] at h
    obtain ⟨content', hbelow, hlayers⟩ := h.below (Nat.succ_pos _)
    obtain ⟨es, app, hrun, hone, hlog, hstorage⟩ :=
      ih (fun q hq => hvalid q (List.mem_append_left _ hq)) hbelow
    have hp := hvalid p (by simp)
    obtain ⟨q, rfl⟩ : ∃ q : Profile JsString, p = q.some :=
      (Home.strings_of_checks (s := { values := p }) hp).exists_profile
    let fails : Field → Bool := fun f => stage f < (versions storage l).length
    obtain ⟨app', hrun', hkeys⟩ := run_tornSession b app fails hp
    refine ⟨es ++ tornSession q fails, app', ?_, hone.append hrun (along_tornSession b app fails hp),
      ?_, ?_⟩
    · rw [Machine.run_append, hrun, Option.bind_some, hrun']
    · rw [Machine.log_append _ _ _ _ hrun, hlog, log_tornSession b app fails hp]
    · intro f
      rw [hkeys f]
      rcases hlayers f with ⟨hnew, hf⟩ | ⟨hold, hf⟩
      · have hlt : f.rank < Field.all.findIdx fails := by
          rw [rank_lt_findIdx]
          intro g hg
          have := h.antitone hg
          exact decide_eq_false (by omega)
        rw [if_pos hlt, hf]
      · have hnot : ¬ f.rank < Field.all.findIdx fails := by
          rw [rank_lt_findIdx]
          intro hall
          exact of_decide_eq_false (hall f le_rfl) hold
        rw [if_neg hnot, hstorage, hf]

/-- With one save at a time, whatever calls fail and whenever the session ends, the keys can
come to hold exactly the layers of what was stored at first and of the accepted profiles. -/
theorem crash_contents {N : Nat} (b : Bank N) (storage : Storage) (file : Option JsString)
    (l : List (Profile (Option JsString))) (content : Field → Option JsString) :
    (∃ es app, (machine b.customData).run (boot storage file) es = some app ∧
      (machine b.customData).Along OneSave (boot storage file) es ∧
      (machine b.customData).log accepted (boot storage file) es = l ∧
      ∀ f : Field, app.storage f.key = content f) ↔
      (∀ p ∈ l, Valid p) ∧ ∃ stage, Layered (versions storage l) content stage := by
  constructor
  · rintro ⟨es, app, hrun, hone, rfl, hcontent⟩
    obtain ⟨stage, ht⟩ := exists_torn hrun hone
    refine ⟨accepted_valid hrun, stage, ?_⟩
    rw [← funext hcontent]
    exact ht.layered
  · rintro ⟨hvalid, stage, hlayered⟩
    exact exists_layered b storage file hvalid hlayered

end QuizApp.App
