import QuizApp.Home.Load

namespace QuizApp.Home

open Js

abbrev Storing := ExceptT Unit (StateM Storage)

def setItem (fails : Field → Bool) (f : Field) (value : Option JsString) : Storing Unit :=
  fun st =>
    match value, fails f with
    | some v, false => (.ok (), st.setItem f.key v)
    | _, _ => (.error (), st)

def setItems (s : State) (fails : Field → Bool) : Storing Unit := do
  setItem fails .firstName s.values.firstName
  setItem fails .lastName s.values.lastName
  setItem fails .nickName s.values.nickName
  setItem fails .age s.values.age

def setDataAlone (s : State) (fails : Field → Bool) (st : Storage) : List Effect × Storage :=
  match setItems s fails st with
  | (.ok _, st) => ([], st)
  | (.error _, st) => (catchBlock "Failed to store data in Async Storage", st)

theorem Storing.bind_ok {x : Storing Unit} {k : Unit → Storing Unit} {st st' : Storage}
    (h : x st = (.ok (), st')) : (x >>= k) st = k () st' := by
  simp only [bind, ExceptT.bind, ExceptT.mk, StateT.bind, h, ExceptT.bindCont]

theorem Storing.bind_error {x : Storing Unit} {k : Unit → Storing Unit} {st st' : Storage}
    (h : x st = (.error (), st')) : (x >>= k) st = (.error (), st') := by
  simp only [bind, ExceptT.bind, ExceptT.mk, StateT.bind, h, ExceptT.bindCont]
  rfl

theorem setItem_ok {fails : Field → Bool} {f : Field} (h : fails f = false) (v : JsString)
    (st : Storage) : setItem fails f (some v) st = (.ok (), st.setItem f.key v) := by
  simp [setItem, h]

theorem setItem_error {fails : Field → Bool} {f : Field} (h : fails f = true)
    (value : Option JsString) (st : Storage) : setItem fails f value st = (.error (), st) := by
  cases value <;> simp [setItem, h]

theorem State.Strings.exists_profile {s : State} (h : s.Strings) :
    ∃ p : Profile JsString, s.values = p.some := by
  have hv : ∀ f, ∃ v, s.values.get f = some v := fun f => Option.isSome_iff_exists.mp (h f)
  choose v hv using hv
  refine ⟨⟨v .firstName, v .lastName, v .nickName, v .age⟩, Profile.ext_get ?_⟩
  intro f
  rw [hv f]
  cases f <;> rfl

def Field.all : List Field := [.firstName, .lastName, .nickName, .age]

theorem Field.mem_all (f : Field) : f ∈ Field.all := by cases f <;> decide

def Field.rank : Field → Nat
  | .firstName => 0
  | .lastName => 1
  | .nickName => 2
  | .age => 3

def storeUpTo (p : Profile JsString) (st : Storage) (n : Nat) : Storage :=
  (Field.all.take n).foldl (fun st f => st.setItem f.key (p.get f)) st

theorem setItems_eq (s : State) (fails : Field → Bool) :
    setItems s fails = forM Field.all fun f => setItem fails f (s.values.get f) := by
  simp [setItems, Field.all, Profile.get]

theorem forM_setItem (p : Profile JsString) (fails : Field → Bool) (fs : List Field) (st : Storage) :
    (forM fs fun f => setItem fails f (p.some.get f)) st =
      (if fs.any fails then .error () else .ok (),
        (fs.take (fs.findIdx fails)).foldl (fun st f => st.setItem f.key (p.get f)) st) := by
  induction fs generalizing st with
  | nil => rfl
  | cons f fs ih =>
    rw [List.forM_cons, Profile.get_some]
    cases hf : fails f with
    | true =>
      rw [Storing.bind_error (setItem_error hf _ _)]
      simp [List.findIdx_cons, hf]
    | false =>
      rw [Storing.bind_ok (setItem_ok hf _ _), ih]
      simp [List.findIdx_cons, hf]

theorem setDataAlone_storage {s : State} {p : Profile JsString} (hs : s.values = p.some)
    (fails : Field → Bool) (st : Storage) :
    (setDataAlone s fails st).2 = storeUpTo p st (Field.all.findIdx fails) := by
  rw [setDataAlone, setItems_eq, hs, forM_setItem]
  cases Field.all.any fails <;> rfl

theorem foldl_setItem_of_not_mem (p : Profile JsString) (fs : List Field) (st : Storage)
    {key : String} (h : ∀ f ∈ fs, key ≠ f.key) :
    fs.foldl (fun st f => st.setItem f.key (p.get f)) st key = st key := by
  induction fs generalizing st with
  | nil => rfl
  | cons f fs ih =>
    rw [List.foldl_cons, ih _ fun g hg => h g (List.mem_cons_of_mem f hg)]
    exact Function.update_of_ne (h f List.mem_cons_self) _ _

theorem foldl_setItem_of_mem (p : Profile JsString) (fs : List Field) (st : Storage) {f : Field}
    (hnodup : fs.Nodup) (h : f ∈ fs) :
    fs.foldl (fun st f => st.setItem f.key (p.get f)) st f.key = some (p.get f) := by
  induction fs generalizing st with
  | nil => cases h
  | cons g fs ih =>
    obtain ⟨hg, hnodup⟩ := List.nodup_cons.mp hnodup
    rw [List.foldl_cons]
    rcases List.mem_cons.mp h with rfl | h
    · rw [foldl_setItem_of_not_mem]
      · exact Function.update_self _ _ _
      · rintro k hk heq
        exact hg (Field.key_injective heq ▸ hk)
    · exact ih _ hnodup h

theorem Field.mem_take_all (f : Field) (n : Nat) : f ∈ Field.all.take n ↔ f.rank < n := by
  match n with
  | 0 | 1 | 2 | 3 => cases f <;> simp [Field.all, Field.rank]
  | n + 4 => cases f <;> simp [Field.all, Field.rank]

theorem storeUpTo_key (p : Profile JsString) (st : Storage) (n : Nat) (f : Field) :
    storeUpTo p st n f.key = if f.rank < n then some (p.get f) else st f.key := by
  split
  · rename_i h
    exact foldl_setItem_of_mem p _ st ((List.take_sublist _ _).nodup (by decide))
      ((f.mem_take_all n).mpr h)
  · rename_i h
    apply foldl_setItem_of_not_mem
    rintro g hg heq
    rw [← Field.key_injective heq] at hg
    exact h ((f.mem_take_all n).mp hg)

section Refinement

def effects (h : Instance) (e : Event) : List Effect := (react h e).elim [] Prod.snd

def onStorage : Storage → Effect → Storage
  | st, .storeItem key value => st.setItem key value
  | st, _ => st

def saveEvents (fails : Field → Bool) : List Field → List Event
  | [] => []
  | f :: fs => .settleSave 0 (!fails f) :: .resumeSave 0 :: if fails f then [] else saveEvents fails fs

theorem run_failed {h : Instance} {f : Field} {v : Option JsString}
    (hsaves : h.saves = [.calling f v]) :
    machine.run h [.settleSave 0 false, .resumeSave 0] = some { h with saves := [] } ∧
      ∀ st, (machine.log effects h [.settleSave 0 false, .resumeSave 0]).foldl onStorage st = st := by
  obtain ⟨state, saves, load, readScore, mounted⟩ := h
  cases hsaves
  exact ⟨rfl, fun _ => rfl⟩

theorem run_stored {h : Instance} {f : Field} {v : JsString} (hsaves : h.saves = [.calling f (some v)])
    (es : List Event) :
    let r : Instance :=
      { h with saves := (f.next.map fun g => .calling g (h.state.values.get g)).toList }
    machine.run h (.settleSave 0 true :: .resumeSave 0 :: es) = machine.run r es ∧
      machine.log effects h (.settleSave 0 true :: .resumeSave 0 :: es) =
        .storeItem f.key v :: machine.log effects r es := by
  obtain ⟨state, saves, load, readScore, mounted⟩ := h
  cases hsaves
  cases f <;> exact ⟨rfl, rfl⟩

theorem Field.next_of_suffix {f : Field} {fs : List Field} (h : f :: fs <:+ Field.all) :
    f.next = fs.head? := by
  simp only [Field.all, List.suffix_cons_iff, List.cons.injEq, List.suffix_nil, reduceCtorEq,
    or_false] at h
  rcases h with ⟨rfl, rfl⟩ | ⟨rfl, rfl⟩ | ⟨rfl, rfl⟩ | ⟨rfl, rfl⟩ <;> rfl

theorem run_saveEvents {h : Instance} {p : Profile JsString} (hvalues : h.state.values = p.some)
    (fails : Field → Bool) {fs : List Field} (hfs : fs <:+ Field.all)
    (hsaves : h.saves = (fs.head?.map fun f => .calling f (p.some.get f)).toList) (st : Storage) :
    machine.run h (saveEvents fails fs) = some { h with saves := [] } ∧
      (machine.log effects h (saveEvents fails fs)).foldl onStorage st =
        (fs.take (fs.findIdx fails)).foldl (fun st f => st.setItem f.key (p.get f)) st := by
  induction fs generalizing h st with
  | nil =>
    refine ⟨?_, rfl⟩
    rw [show ([] : List SetData) = h.saves from hsaves.symm]
    rfl
  | cons f fs ih =>
    cases hf : fails f with
    | true =>
      obtain ⟨hrun, hlog⟩ := run_failed hsaves
      simp only [saveEvents, hf, Bool.not_true, if_true]
      exact ⟨hrun, by simpa [List.findIdx_cons, hf] using hlog st⟩
    | false =>
      obtain ⟨hrun, hlog⟩ := run_stored (v := p.get f) (by simpa using hsaves) (saveEvents fails fs)
      obtain ⟨hrest, hstored⟩ := @ih
        { h with saves := (f.next.map fun g => .calling g (h.state.values.get g)).toList }
        hvalues ((List.suffix_cons f fs).trans hfs) (by rw [Field.next_of_suffix hfs, hvalues])
        (st.setItem f.key (p.get f))
      simp only [saveEvents, hf, Bool.not_false, Bool.false_eq_true, if_false]
      refine ⟨hrun.trans hrest, ?_⟩
      rw [hlog, List.foldl_cons, onStorage, hstored]
      simp [List.findIdx_cons, hf]

/-- The machine, given only the steps of one `setData`, does what `setDataAlone` does. -/
theorem setDataAlone_eq_run {h : Instance} (hsaves : h.saves = [setData h.state])
    (hstrings : h.state.Strings) (fails : Field → Bool) (st : Storage) :
    machine.run h (saveEvents fails Field.all) =
        some { h with saves := [] } ∧
      (setDataAlone h.state fails st).2 = (machine.log effects h
        (saveEvents fails Field.all)).foldl onStorage st := by
  obtain ⟨p, hp⟩ := hstrings.exists_profile
  have hfirst : h.saves = [.calling .firstName (p.some.get .firstName)] := by
    rw [hsaves, ← hp]
    rfl
  obtain ⟨hrun, hlog⟩ := run_saveEvents hp fails (List.suffix_refl Field.all) hfirst st
  refine ⟨hrun, ?_⟩
  rw [setDataAlone_storage hp]
  exact hlog.symm

end Refinement

theorem setDataAlone_key {s : State} (hs : s.Strings) (fails : Field → Bool) (st : Storage)
    (f : Field) : (setDataAlone s fails st).2 f.key =
      if f.rank < Field.all.findIdx fails then s.values.get f else st f.key := by
  obtain ⟨p, hp⟩ := hs.exists_profile
  rw [setDataAlone_storage hp, hp, Profile.get_some, storeUpTo_key]

def AllOrNothing (s : State) (before after : Storage) : Prop :=
  (∀ f : Field, after f.key = s.values.get f) ∨ ∀ f : Field, after f.key = before f.key

/-- When `setData` has finished, the keys before its first failing call hold the values
of the form and every other key holds what it held before. -/
theorem setData_stores_up_to_failure (s : State) (fails : Field → Bool) (st : Storage)
    (hform : ∀ f : Field, f.check (s.values.get f) = .ok false) :
    (∀ f : Field, (setDataAlone s fails st).2 f.key =
        if f.rank < Field.all.findIdx fails then s.values.get f else st f.key) ∧
      (∀ key, (∀ f : Field, key ≠ f.key) → (setDataAlone s fails st).2 key = st key) := by
  have hstrings := strings_of_checks hform
  refine ⟨setDataAlone_key hstrings fails st, ?_⟩
  intro key hkey
  obtain ⟨p, hp⟩ := hstrings.exists_profile
  rw [setDataAlone_storage hp]
  exact foldl_setItem_of_not_mem p _ st fun f _ => hkey f

def bob : Profile JsString := ⟨.lit "Bob", .lit "Ray", .lit "bobby", .lit "41"⟩

def storageOf (p : Profile JsString) : Storage := storeUpTo p (fun _ => none) 4

theorem bob_stored_over_ann_up_to_nickName :
    (∀ f : Field, (setDataAlone { values := bob.some } (· = .nickName) (storageOf ann)).2 f.key =
        if f.rank < Field.all.findIdx (· = .nickName) then bob.some.get f else storageOf ann f.key) ∧
      (∀ key, (∀ f : Field, key ≠ f.key) →
        (setDataAlone { values := bob.some } (· = .nickName) (storageOf ann)).2 key =
          storageOf ann key) :=
  setData_stores_up_to_failure { values := bob.some } (· = .nickName) (storageOf ann)
    (by intro f; cases f <;> decide)

theorem failed_save_mixes_profiles :
    ¬ AllOrNothing { values := bob.some } (storageOf ann)
      (setDataAlone { values := bob.some } (· = .nickName) (storageOf ann)).2 := by
  rintro (h | h)
  · exact absurd (h .age) (by decide)
  · exact absurd (h .firstName) (by decide)

end QuizApp.Home
