import QuizApp.Machine.Refine
import QuizApp.App.Pending
import QuizApp.App.Sessions

namespace QuizApp.App

open Js
open Home (Field Profile SetData ann)

/-- `validate` finds no fault with the value; `null` makes it throw. -/
def Sound (f : Field) (value : Option JsString) : Prop := f.check value ≠ .ok true

instance (f : Field) (value : Option JsString) : Decidable (Sound f value) :=
  inferInstanceAs (Decidable (_ ≠ _))

theorem Sound.none (f : Field) : Sound f none := by simp [Sound, f.check_none]

theorem Sound.of_valid {f : Field} {value : Option JsString} (h : f.check value = .ok false) :
    Sound f value := by simp [Sound, h]

/-- A text typed into a field that a save of its form has still to read is one that
`validate` passes. -/
def Guarded (app : System) (e : Event) : Prop :=
  ∀ id h f v, e = .home id (.edit f (some v)) → app.instances[id]? = some (.home h) →
    h.Ahead f → Sound f (some v)

/-- No faulty text gets into the storage as long as the edits to come are guarded. -/
def Safe (customData : Quiz.CustomData) (app : System) : Prop :=
  ∀ es app', (machine customData).Along Guarded app es →
    (machine customData).run app es = some app' → ∀ f : Field, Sound f (app'.storage f.key)

theorem System.Keeps.sound_step {customData : Quiz.CustomData} {app app' : System} {e : Event}
    (hs : app.Keeps Sound) (hg : Guarded app e) (hst : Steps customData app e app') :
    app'.Keeps Sound :=
  hs.step hst Sound.none (fun _ _ hvalid f => .of_valid (hvalid f)) hg

theorem safe_of_keeps {customData : Quiz.CustomData} {app : System} (hs : app.Keeps Sound) :
    Safe customData app := by
  intro es app' hg hrun
  have hsound := hg.keeps (K := System.Keeps Sound) hs
    (fun _ _ _ hs hg hst => hs.sound_step hg (steps_of_step hst)) hrun
  exact hsound.storage

section Tightness

variable {customData : Quiz.CustomData} {app : System} {id i : Nat} {h : Home.Instance}

theorem guarded_save (app : System) (id : Nat) {e : Home.Event} (he : ofSave e = true) :
    Guarded app (.home id e) := by
  rintro id' h f v heq
  cases heq
  cases he

theorem along_saves (app : System) (id : Nat) {es : List Home.Event}
    (hes : ∀ e ∈ es, ofSave e = true) : (machine customData).Along Guarded app (onHome id es) := by
  apply Machine.Along.of_forall
  intro e he app'
  obtain ⟨x, hx, rfl⟩ := List.mem_map.mp he
  exact guarded_save app' id (hes x hx)

theorem exists_store {key : Field} {v : JsString} (hid : app.instances[id]? = some (.home h))
    (hi : h.saves[i]? = some (.calling key (some v))) :
    ∃ app', (machine customData).step app (.home id (.settleSave i true)) = some app' ∧
      app'.instances[id]? = some (.home { h with saves := h.saves.set i (.settled key true) }) ∧
      app'.storage key.key = some v :=
  ⟨_, step_save hid rfl (.storeItem hi), System.put_self hid, Function.update_self _ _ _⟩

theorem exists_next {key next : Field} {v : JsString} (hid : app.instances[id]? = some (.home h))
    (hi : h.saves[i]? = some (.settled key true)) (hnext : key.next = some next)
    (hv : h.state.values.get next = some v) :
    ∃ app', (machine customData).run app (onHome id [.resumeSave i, .settleSave i true]) =
        some app' ∧
      app'.instances[id]? = some (.home { h with saves := h.saves.set i (.settled next true) }) ∧
      app'.storage next.key = some v := by
  obtain ⟨hlt, -⟩ := List.getElem?_eq_some_iff.mp hi
  obtain ⟨called, hcall, hid'⟩ : ∃ called,
      (machine customData).step app (.home id (.resumeSave i)) = some called ∧
        called.instances[id]? = some (.home { h with
          saves := h.saves.set i (.calling next (h.state.values.get next)) }) :=
    ⟨_, step_save hid rfl (.saveNext hi hnext), System.put_self hid⟩
  rw [hv] at hid'
  obtain ⟨app', hstore, hid'', hstored⟩ := @exists_store customData called id i _ next v hid'
    (by simp [hlt])
  refine ⟨app', ?_, ?_, hstored⟩
  · simp [onHome, Machine.run, hcall, hstore]
  · rw [hid'']
    simp

theorem exists_field_next {key f : Field} (h : key.rank < f.rank) : ∃ next, key.next = some next := by
  cases key with
  | age => cases f <;> simp [Home.Field.rank] at h
  | _ => exact ⟨_, rfl⟩

theorem ann_sound (f : Field) : Sound f (some (ann.get f)) := by cases f <;> decide

theorem exists_stored {f : Field} {v : JsString} (n : Nat) {key : Field}
    (hn : f.rank = key.rank + n + 1) (hid : app.instances[id]? = some (.home h))
    (hm : h.mounted = true) (hi : h.saves[i]? = some (.settled key true))
    (hf : h.state.values.get f = some v) :
    ∃ es app', (machine customData).Along Guarded app es ∧
      (machine customData).run app es = some app' ∧ app'.storage f.key = some v := by
  induction n generalizing app h key with
  | zero =>
    obtain ⟨next, hnext⟩ := exists_field_next (show key.rank < f.rank by omega)
    have hrank := Home.Field.rank_next hnext
    obtain rfl : next = f := Home.Field.rank_injective (by omega)
    obtain ⟨app', hrun, -, hstored⟩ := exists_next hid hi hnext hf
    exact ⟨_, app', along_saves app id (by simp [ofSave]), hrun, hstored⟩
  | succ n ih =>
    obtain ⟨next, hnext⟩ := exists_field_next (show key.rank < f.rank by omega)
    have hrank := Home.Field.rank_next hnext
    have hne : f ≠ next := by
      rintro rfl
      omega
    obtain ⟨hlt, -⟩ := List.getElem?_eq_some_iff.mp hi
    -- the value of the next field may be `null`, so that it is typed first
    let typed : Home.Instance :=
      { h with state := Home.inputHandler next h.state (some (ann.get next)) }
    have hedit : (machine customData).step app (.home id (.edit next (some (ann.get next)))) =
        some (app.put id (.home typed)) := step_edit hid hm next (ann.get next)
    obtain ⟨stored, hrun, hid', -⟩ := @exists_next customData _ id i typed key next (ann.get next)
      (System.put_self hid) hi hnext (by simp [typed, Home.inputHandler])
    obtain ⟨es, app', hes, hrun', hstored⟩ := @ih stored _ next (by omega) hid' hm
      (by simp [typed, hlt]) (by simpa [typed, Home.inputHandler, hne] using hf)
    refine ⟨.home id (.edit next (some (ann.get next))) ::
      (onHome id [.resumeSave i, .settleSave i true] ++ es), app', ?_, ?_, hstored⟩
    · refine (Machine.along_cons hedit).mpr ⟨?_, ?_⟩
      · rintro id' g f' v' heq
        cases heq
        exact fun _ _ => ann_sound next
      · exact (along_saves _ id (by simp [ofSave])).append hrun hes
    · rw [Machine.run, hedit, Option.bind_some, Machine.run_append, hrun, Option.bind_some, hrun']

theorem exists_stored_of_ahead {f : Field} (hid : app.instances[id]? = some (.home h))
    (hm : h.mounted = true) (hahead : h.Ahead f) {v : JsString}
    (hf : h.state.values.get f = some v) :
    ∃ es app', (machine customData).Along Guarded app es ∧
      (machine customData).run app es = some app' ∧ app'.storage f.key = some v := by
  obtain ⟨s, hs, hlive, hrank⟩ := hahead
  obtain ⟨i, hi⟩ := List.mem_iff_getElem?.mp hs
  obtain ⟨hlt, -⟩ := List.getElem?_eq_some_iff.mp hi
  have hn : f.rank = s.key.rank + (f.rank - s.key.rank - 1) + 1 := by omega
  cases s with
  | settled key ok =>
    cases hlive
    exact exists_stored _ hn hid hm hi hf
  | calling key value =>
    obtain ⟨w, rfl⟩ := Option.isSome_iff_exists.mp hlive
    obtain ⟨stored, hstore, hid', -⟩ := exists_store hid hi
    obtain ⟨es, app', hes, hrun, hstored⟩ := @exists_stored customData stored id i _ f v _ key hn hid'
      hm (by simp [hlt]) hf
    refine ⟨_, app', (Machine.along_cons hstore).mpr ⟨guarded_save app id rfl, hes⟩, ?_, hstored⟩
    rw [Machine.run, hstore, Option.bind_some, hrun]

theorem guarded_of_safe {e : Event} {app' : System} (hstep : step customData app e = some app')
    (hsafe : Safe customData app') : Guarded app e := by
  rintro id h f v rfl hid hahead
  have hst := steps_of_step hstep
  cases hst with
  | home hid' _ _ hr =>
    cases hid.symm.trans hid'
    cases hr with
    | edit hm =>
      by_contra hfaulty
      let typed : Home.Instance := { h with state := Home.inputHandler f h.state (some v) }
      obtain ⟨es, app', hes, hrun, hstored⟩ := @exists_stored_of_ahead customData
        (app.put id (.home typed)) id typed f (System.put_self hid) hm hahead v
        (by simp [typed, Home.inputHandler])
      have hsound := hsafe es app' hes hrun f
      rw [hstored] at hsound
      exact hfaulty hsound

end Tightness

/-- Started with a storage of such texts, a run stays where no faulty text can get into the
storage exactly as long as its own edits are guarded. -/
theorem safe_iff_guarded (customData : Quiz.CustomData) (storage : Storage)
    (file : Option JsString) (hst : ∀ f : Field, Sound f (storage f.key)) (es : List Event) :
    (machine customData).Always Machine.unobserved (fun app _ => Safe customData app)
      (boot storage file) es ↔ (machine customData).Along Guarded (boot storage file) es :=
  Machine.always_iff_meets (K := fun app _ => app.Keeps Sound) (.boot file Sound.none hst)
    (fun _ _ _ _ hs hg hst => hs.sound_step hg (steps_of_step hst))
    (fun _ _ hs => safe_of_keeps hs)
    (fun _ _ _ _ _ hst hsafe => guarded_of_safe hst hsafe) es

theorem guarded_iff (app : System) (e : Event) :
    (match e with
      | .home id (.edit f (some v)) => decide (∀ h, app.instances[id]? = some (.home h) →
        h.Ahead f → Sound f (some v))
      | _ => true) = true ↔ Guarded app e := by
  constructor
  · rintro hg id h f v rfl hid
    exact of_decide_eq_true hg h hid
  · intro hg
    split
    · exact decide_eq_true fun h => hg _ h _ _ rfl
    · rfl

instance (app : System) (e : Event) : Decidable (Guarded app e) :=
  decidable_of_iff _ (guarded_iff app e)

def correctedAge : List Event :=
  startQuiz ann ++ onHome 0 [.settleSave 0 true, .edit .age (some (.lit "31")), .resumeSave 0]

theorem correctedAge_safe :
    (machine Quiz.customData).Always Machine.unobserved (fun app _ => Safe Quiz.customData app)
        freshInstall correctedAge ∧
      ((machine Quiz.customData).run freshInstall correctedAge).isSome := by
  refine ⟨?_, by decide +kernel⟩
  apply (safe_iff_guarded Quiz.customData (fun _ => none) none (fun f => .none f) correctedAge).mpr
  exact Machine.along_of_checks (by decide +kernel)

end QuizApp.App
