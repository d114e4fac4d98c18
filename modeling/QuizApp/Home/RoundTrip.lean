import QuizApp.Home.Progress

namespace QuizApp.Home

open Js

def StoredUpTo (st : Storage) (p : Profile (Option JsString)) (n : Nat) : Prop :=
  ∀ f : Field, f.rank < n → st f.key = p.get f

structure Load.Reads (st : Storage) (l : Load) : Prop where
  succeeded : ∀ point, l ≠ .settled point .rejected
  got : ∀ f : Field, f.rank < l.count → l.got.get f = st f.key

structure Mirrors (st : Storage) (last : Option (Profile (Option JsString))) (h : Instance) :
    Prop where
  saves : ∀ s ∈ h.saves, ∃ p, last = some p ∧ SaveOf st h.state.values p s ∧
    StoredUpTo st p s.count
  load : ∀ l, h.load = some l → l.Reads st ∧ h.state.errors = .replicate false

def Event.isInput : Event → Bool
  | .edit _ _ | .login => true
  | _ => false

variable {st : Storage} {last : Option (Profile (Option JsString))}

theorem Load.Reads.settle {point : GetData} (h : Load.Reads st (.calling point)) :
    Load.Reads st (.settled point (.fulfilled (st point.key.key))) where
  succeeded := by simp
  got := GetData.got_settle h.got

theorem Load.Reads.next {point next : GetData} {value : Option JsString}
    (h : Load.Reads st (.settled point (.fulfilled value)))
    (hnext : point.resume value = .inl next) : Load.Reads st (.calling next) where
  succeeded := by simp
  got f hf := by
    obtain ⟨hrank, hgot⟩ := GetData.resume_inl hnext
    simp only [Load.count, Load.got, hrank, hgot] at hf ⊢
    exact h.got f hf

theorem Load.Reads.read {point : GetData} {value : Option JsString}
    {read : Profile (Option JsString)} (h : Load.Reads st (.settled point (.fulfilled value)))
    (hread : point.resume value = .inr read) (f : Field) : read.get f = st f.key := by
  obtain ⟨hrank, rfl⟩ := GetData.resume_inr hread
  apply h.got
  simp only [Load.count, hrank]
  exact f.rank_lt

theorem Mirrors.fresh (st : Storage) (last : Option (Profile (Option JsString))) :
    Mirrors st last {} where
  saves := by simp
  load l hl := by
    cases hl
    exact ⟨⟨by simp, fun f hf => absurd hf (Nat.not_lt_zero _)⟩, rfl⟩

theorem Mirrors.of_idle {h : Instance} (hsaves : h.saves = []) (hload : h.load = none) :
    Mirrors st last h where
  saves := by simp [hsaves]
  load := by simp [hload]

theorem Mirrors.congr {h r : Instance} (hh : Mirrors st last h) (hsaves : r.saves = h.saves)
    (hload : r.load = h.load) (hvalues : r.state.values = h.state.values)
    (herrors : r.state.errors = h.state.errors) : Mirrors st last r where
  saves := by
    rw [hsaves, hvalues]
    exact hh.saves
  load := by
    rw [hload, herrors]
    exact hh.load

theorem Mirrors.saveNext {h : Instance} (hh : Mirrors st last h) {i : Nat} {key next : Field}
    (hi : h.saves[i]? = some (.settled key true)) (hnext : key.next = some next) :
    Mirrors st last
      { h with saves := h.saves.set i (.calling next (h.state.values.get next)) } where
  saves s hs := by
    rcases List.mem_or_eq_of_mem_set hs with hs | rfl
    · exact hh.saves s hs
    · obtain ⟨p, hlast, hsave, hstored⟩ := hh.saves _ (List.mem_of_getElem? hi)
      refine ⟨p, hlast, hsave.next hnext, ?_⟩
      rwa [SetData.count, Field.rank_next hnext]
  load := hh.load

theorem Mirrors.stored_of_done {h : Instance} (hh : Mirrors st last h) {i : Nat} {key : Field}
    (hi : h.saves[i]? = some (.settled key true)) (hnext : key.next = none) :
    ∃ p, last = some p ∧ ∀ f : Field, st f.key = p.get f := by
  obtain ⟨p, hlast, -, hstored⟩ := hh.saves _ (List.mem_of_getElem? hi)
  refine ⟨p, hlast, fun f => hstored f ?_⟩
  rw [Field.next_eq_none.mp hnext]
  exact f.rank_lt

theorem setItem_of_get {p : Profile (Option JsString)} {key f : Field} {v : JsString}
    (hv : p.get key = some v) (hf : st f.key = p.get f) : st.setItem key.key v f.key = p.get f := by
  by_cases hkey : f = key
  · subst hkey
    rw [Storage.setItem, Function.update_self, hv]
  · rw [Storage.setItem, Function.update_of_ne fun heq => hkey (Field.key_injective heq), hf]

theorem Mirrors.overwrite {h : Instance} (hh : Mirrors st last h) (hload : h.load = none)
    {key : Field} {v : JsString} (hv : ∀ p, last = some p → p.get key = some v) :
    Mirrors (st.setItem key.key v) last h where
  saves s hs := by
    obtain ⟨p, hlast, hsave, hstored⟩ := hh.saves s hs
    have hv := hv p hlast
    exact ⟨p, hlast, ⟨hsave.toReading, hsave.succeeded,
      fun hp f hf => setItem_of_get hv (hsave.stored hp f hf)⟩,
      fun f hf => setItem_of_get hv (hstored f hf)⟩
  load := by simp [hload]

theorem Mirrors.store {h : Instance} (hh : Mirrors st last h) (hload : h.load = none) {i : Nat}
    {key : Field} {v : JsString} (hi : h.saves[i]? = some (.calling key (some v))) :
    (∀ p, last = some p → p.get key = some v) ∧
      Mirrors (st.setItem key.key v) last { h with saves := h.saves.set i (.settled key true) } := by
  obtain ⟨p, hlast, hsave, -⟩ := hh.saves _ (List.mem_of_getElem? hi)
  have hv : ∀ p, last = some p → p.get key = some v := by
    intro p' hlast'
    cases hlast.symm.trans hlast'
    exact (hsave.value key (some v) rfl).symm
  refine ⟨hv, ?_, by simp [hload]⟩
  intro s hs
  rcases List.mem_or_eq_of_mem_set hs with hs | rfl
  · exact (hh.overwrite hload hv).saves s hs
  · obtain ⟨hsettled, hstored⟩ := hsave.store
    exact ⟨p, hlast, hsettled, fun f hf => hstored f (Nat.le_of_lt_succ hf)⟩

theorem Mirrors.reacts {h r : Instance} {e : Event} {fx : List Effect} (hh : Mirrors st last h)
    (hr : Reacts h e r fx) (hfx : ∀ x ∈ fx, ∃ error, x = .unhandledRejection error)
    (hread : ∀ point reply, h.load = some (.calling point) → e = .settleLoad reply →
      reply = .fulfilled (st point.key.key))
    (hwrite : ∀ i, e ≠ .settleSave i false)
    (hinput : e.isInput = true → h.saves = [] ∧ h.load = none)
    (hphase : h.saves = [] ∨ h.load = none) :
    Mirrors st last r ∧ (h.saves = [] → r.saves = []) ∧ (h.load = none → r.load = none) ∧
      (r.saves = [] → h.saves = [] ∨ ∃ p, last = some p ∧ ∀ f : Field, st f.key = p.get f) := by
  cases hr with
  | edit =>
    obtain ⟨hsaves, hload⟩ := hinput rfl
    exact ⟨.of_idle hsaves hload, id, id, .inl⟩
  | rejected =>
    obtain ⟨hsaves, hload⟩ := hinput rfl
    exact ⟨.of_idle hsaves hload, id, id, .inl⟩
  | accepted => simp at hfx
  | storeItem => simp at hfx
  | failItem => exact absurd rfl (hwrite _)
  | saveNext hi hnext =>
    refine ⟨hh.saveNext hi hnext, fun hnil => ?_, id, fun hnil => ?_⟩
    · simp [hnil] at hi
    · simp only [List.set_eq_nil_iff] at hnil
      exact .inl hnil
  | saveDone hi hnext =>
    refine ⟨⟨fun s hs => hh.saves s (List.mem_of_mem_eraseIdx hs), hh.load⟩, fun hnil => ?_, id,
      fun _ => .inr (hh.stored_of_done hi hnext)⟩
    simp [hnil] at hi
  | saveFailed hi =>
    obtain ⟨p, -, hsave, -⟩ := hh.saves _ (List.mem_of_getElem? hi)
    exact absurd rfl (hsave.succeeded _)
  | settleLoad hl =>
    obtain ⟨hreads, herrors⟩ := hh.load _ hl
    obtain rfl := hread _ _ hl rfl
    refine ⟨⟨hh.saves, ?_⟩, id, by simp [hl], .inl⟩
    intro l hl
    cases hl
    exact ⟨hreads.settle, herrors⟩
  | loadNext hl hnext =>
    obtain ⟨hreads, herrors⟩ := hh.load _ hl
    refine ⟨⟨hh.saves, ?_⟩, id, by simp [hl], .inl⟩
    intro l hl
    cases hl
    exact ⟨hreads.next hnext, herrors⟩
  | loadDone hl =>
    have hsaves : h.saves = [] := hphase.resolve_right (by simp [hl])
    exact ⟨.of_idle (by simpa using hsaves) rfl, fun _ => by simpa using hsaves, fun _ => rfl,
      fun _ => .inl hsaves⟩
  | loadFailed hl => exact absurd rfl ((hh.load _ hl).1.succeeded _)
  | readDone =>
    refine ⟨hh.congr (by simp) (by simp) (Instance.setState_values _ rfl)
      (Instance.setState_errors _ rfl), by simp, by simp, ?_⟩
    intro hnil
    exact .inl (by simpa using hnil)
  | _ => exact ⟨hh.congr rfl rfl rfl rfl, id, id, .inl⟩

theorem found_of_valid {p : Profile (Option JsString)}
    (hvalid : ∀ f : Field, f.check (p.get f) = .ok false) : Found p := by
  refine .inl fun hnone => ?_
  have hcheck := hvalid .firstName
  rw [show p.get .firstName = none from hnone, Field.check_none] at hcheck
  cases hcheck

theorem Mirrors.restore {h : Instance} (hh : Mirrors st last h) (hmounted : h.mounted = true)
    {point : GetData} {value : Option JsString} {read p : Profile (Option JsString)}
    (hl : h.load = some (.settled point (.fulfilled value))) (hread : point.resume value = .inr read)
    (hst : ∀ f : Field, st f.key = p.get f) (hvalid : ∀ f : Field, f.check (p.get f) = .ok false) :
    (h.setState (h.state.load read)).state =
      { h.state with values := p, errors := .replicate false } := by
  obtain ⟨hreads, herrors⟩ := hh.load _ hl
  obtain rfl : read = p := Profile.ext_get fun f => (hreads.read hread f).trans (hst f)
  rw [← herrors, Instance.setState, if_pos hmounted, State.load, if_pos (found_of_valid hvalid)]

/-- What the saves of this instance have still to write is in the storage already. -/
structure Rewrites (st : Storage) (h : Instance) : Prop where
  calling : ∀ key v, .calling key v ∈ h.saves → v = st key.key
  idle : h.saves ≠ [] → h.load = none ∧ ∀ f : Field, h.state.values.get f = st f.key

theorem Rewrites.of_nil {h : Instance} (hnil : h.saves = []) : Rewrites st h := by
  constructor <;> simp [hnil]

theorem Rewrites.of_load {h : Instance} {l : Load} (hh : Rewrites st h) (hl : h.load = some l) :
    h.saves = [] := by
  by_contra hne
  rw [(hh.idle hne).1] at hl
  cases hl

theorem Rewrites.mono {h r : Instance} (hh : Rewrites st h)
    (hcalling : ∀ key v, .calling key v ∈ r.saves → .calling key v ∈ h.saves)
    (hsaves : r.saves ≠ [] → h.saves ≠ []) (hload : h.load = none → r.load = none)
    (hvalues : r.state.values = h.state.values) : Rewrites st r where
  calling key v hv := hh.calling key v (hcalling key v hv)
  idle hne := by
    rw [hvalues]
    exact ⟨hload (hh.idle (hsaves hne)).1, (hh.idle (hsaves hne)).2⟩

theorem Rewrites.settle {h : Instance} (hh : Rewrites st h) (i : Nat) (key : Field) (ok : Bool) :
    Rewrites st { h with saves := h.saves.set i (.settled key ok) } := by
  refine hh.mono ?_ (by simp) id rfl
  intro k v hv
  rcases List.mem_or_eq_of_mem_set hv with hv | heq
  · exact hv
  · cases heq

theorem Rewrites.erase {h : Instance} (hh : Rewrites st h) (i : Nat) :
    Rewrites st { h with saves := h.saves.eraseIdx i } := by
  refine hh.mono (fun _ _ hv => List.mem_of_mem_eraseIdx hv) ?_ id rfl
  intro hne hnil
  exact hne (by simp [hnil])

theorem Rewrites.reacts {h r : Instance} {e : Event} {fx : List Effect} (hh : Rewrites st h)
    (hr : Reacts h e r fx) (he : e.isInput = false) : Rewrites st r := by
  cases hr with
  | edit => cases he
  | rejected => cases he
  | accepted => cases he
  | storeItem => exact hh.settle _ _ _
  | failItem => exact hh.settle _ _ _
  | saveNext hi =>
    have hne : h.saves ≠ [] := List.ne_nil_of_mem (List.mem_of_getElem? hi)
    refine ⟨?_, fun _ => hh.idle hne⟩
    intro key v hv
    rcases List.mem_or_eq_of_mem_set hv with hv | heq
    · exact hh.calling key v hv
    · cases heq
      exact (hh.idle hne).2 _
  | saveDone => exact hh.erase _
  | saveFailed => exact hh.erase _
  | settleLoad hl => exact .of_nil (hh.of_load hl)
  | loadNext hl => exact .of_nil (hh.of_load hl)
  | loadDone hl => exact .of_nil (by simpa using hh.of_load hl)
  | loadFailed hl => exact .of_nil (hh.of_load hl)
  | readDone => exact hh.mono (by simp) (by simp) (by simp) (Instance.setState_values _ rfl)
  | _ => exact hh.mono (fun _ _ => id) id id rfl

end QuizApp.Home
