import QuizApp.Home.Save

namespace QuizApp.Home

open Js

def SetData.key : SetData → Field
  | .calling key _ => key
  | .settled key _ => key

def SetData.count : SetData → Nat
  | .calling key _ => key.rank
  | .settled key ok => key.rank + ok.toNat

def SetData.PartWay (s : SetData) : Prop := 0 < s.count ∧ s.count < 4

instance (s : SetData) : Decidable s.PartWay := inferInstanceAs (Decidable (_ ∧ _))

def GetData.got : GetData → Profile (Option JsString)
  | .firstName => .replicate none
  | .lastName a => ⟨a, none, none, none⟩
  | .nickName a b => ⟨a, b, none, none⟩
  | .age a b c => ⟨a, b, c, none⟩

def Load.count : Load → Nat
  | .calling point => point.key.rank
  | .settled point _ => point.key.rank + 1

def Load.PartWay (l : Load) : Prop := 0 < l.count ∧ l.count < 4

instance (l : Load) : Decidable l.PartWay := inferInstanceAs (Decidable (_ ∧ _))

def Load.got : Load → Profile (Option JsString)
  | .calling point => point.got
  | .settled point (.fulfilled value) => point.got.set point.key value
  | .settled point .rejected => point.got

theorem Field.rank_lt (f : Field) : f.rank < 4 := by cases f <;> decide

theorem Field.rank_injective : Function.Injective Field.rank := by
  intro f g h
  cases f <;> cases g <;> first | rfl | cases h

theorem Field.rank_next {f g : Field} (h : f.next = some g) : g.rank = f.rank + 1 := by
  cases f <;> cases h <;> rfl

theorem Field.next_eq_none {f : Field} : f.next = none ↔ f = .age := by cases f <;> decide

theorem GetData.resume_inl {point next : GetData} {value : Option JsString}
    (h : point.resume value = .inl next) :
    next.key.rank = point.key.rank + 1 ∧ next.got = point.got.set point.key value := by
  cases point <;> cases h <;> exact ⟨rfl, rfl⟩

theorem GetData.resume_inr {point : GetData} {value : Option JsString}
    {read : Profile (Option JsString)} (h : point.resume value = .inr read) :
    point.key.rank = 3 ∧ read = point.got.set point.key value := by
  cases point <;> cases h
  exact ⟨rfl, rfl⟩

theorem Instance.loaded_eq_some {h : Instance} {read : Profile (Option JsString)}
    (hread : h.loaded = some read) :
    ∃ point value, h.load = some (.settled point (.fulfilled value)) ∧
      point.resume value = .inr read ∧ Found read := by
  simp only [Instance.loaded] at hread
  split at hread
  · rename_i a b c d hload
    split at hread
    · rename_i hfound
      cases hread
      exact ⟨.age a b c, d, hload, rfl, hfound.2⟩
    · cases hread
  · cases hread

/-- The event leaves alone the fields of the form that a save of it has still to read. -/
structure Instance.KeepsUnread (h : Instance) (e : Event) : Prop where
  edit : ∀ f v, e = .edit f (some v) → ∀ s ∈ h.saves, s.key.rank < f.rank →
    h.state.values.get f = some v
  load : ∀ read, e = .resumeLoad → h.loaded = some read → ∀ s ∈ h.saves, ∀ f : Field,
    s.key.rank < f.rank → read.get f = h.state.values.get f

instance (h : Instance) (e : Event) : Decidable (h.KeepsUnread e) :=
  match e with
  | .edit f (some v) =>
    decidable_of_iff (∀ s ∈ h.saves, s.key.rank < f.rank → h.state.values.get f = some v)
      ⟨fun hedit => ⟨by rintro _ _ ⟨⟩; exact hedit, by simp⟩, fun hk => hk.edit f v rfl⟩
  | .resumeLoad =>
    decidable_of_iff (∀ read ∈ h.loaded, ∀ s ∈ h.saves, ∀ f ∈ Field.all, s.key.rank < f.rank →
        read.get f = h.state.values.get f)
      ⟨fun hload => ⟨by simp, fun read _ hread s hs f => hload read hread s hs f f.mem_all⟩,
        fun hk read hread s hs f _ => hk.load read rfl hread s hs f⟩
  | .edit _ none | .login | .settleSave _ _ | .resumeSave _ | .settleLoad _ | .settleExists _
  | .settleRead _ | .resumeScore | .unmount => isTrue ⟨by simp, by simp⟩

theorem Instance.KeepsUnread.of_nil {h : Instance} (hnil : h.saves = []) (e : Event) :
    h.KeepsUnread e where
  edit _ _ _ := by simp [hnil]
  load _ _ _ := by simp [hnil]

theorem Instance.KeepsUnread.values {h : Instance} {e : Event} {s' : State}
    (hk : h.KeepsUnread e) (hform : FormStep h e s') :
    ∀ s ∈ h.saves, ∀ f : Field, s.key.rank < f.rank → s'.values.get f = h.state.values.get f := by
  intro s hs f hf
  cases hform with
  | edit g v =>
    by_cases hfg : f = g
    · subst hfg
      simp [inputHandler, hk.edit f v rfl s hs hf]
    · simp [inputHandler, hfg]
  | reject => rfl
  | load read hread => exact hk.load read rfl hread s hs f hf
  | other _ _ hvalues _ => rw [hvalues]

structure Reading (values p : Profile (Option JsString)) (s : SetData) : Prop where
  value : ∀ key v, s = .calling key v → v = p.get key
  rest : ∀ f : Field, s.key.rank < f.rank → values.get f = p.get f

structure SaveOf (st : Storage) (values p : Profile (Option JsString)) (s : SetData) : Prop
    extends Reading values p s where
  succeeded : ∀ key, s ≠ .settled key false
  stored : s.PartWay → ∀ f : Field, f.rank < s.count → st f.key = p.get f

structure LoadOf (st : Storage) (profiles : List (Profile (Option JsString))) (saving : Prop)
    (l : Load) : Prop where
  succeeded : ∀ point, l ≠ .settled point .rejected
  partWay : l.PartWay → ¬ saving ∧ ∀ f : Field, f.rank < l.count → l.got.get f = st f.key
  whole : l.count = 4 → l.got = .replicate none ∨ l.got ∈ profiles

structure HomeOf (st : Storage) (profiles : List (Profile (Option JsString))) (saving : Prop)
    (h : Instance) : Prop where
  saves : ∀ s ∈ h.saves, ∃ p ∈ profiles, SaveOf st h.state.values p s
  load : ∀ l, h.load = some l → LoadOf st profiles saving l

def StorageOf (st : Storage) (profiles : List (Profile (Option JsString))) : Prop :=
  (∀ f : Field, st f.key = none) ∨ ∃ p ∈ profiles, ∀ f : Field, st f.key = p.get f

variable {st : Storage} {profiles : List (Profile (Option JsString))} {saving : Prop}

namespace Reading

variable {values p : Profile (Option JsString)}

theorem keep {values' : Profile (Option JsString)} {s : SetData} (h : Reading values p s)
    (hvalues : ∀ f : Field, s.key.rank < f.rank → values'.get f = values.get f) :
    Reading values' p s where
  value := h.value
  rest f hf := (hvalues f hf).trans (h.rest f hf)

theorem start (s : State) : Reading s.values s.values (setData s) where
  value key v hv := by
    cases hv
    rfl
  rest _ _ := rfl

theorem settle {key : Field} {value : Option JsString} (h : Reading values p (.calling key value))
    (ok : Bool) : Reading values p (.settled key ok) where
  value _ _ hv := by cases hv
  rest := h.rest

theorem next {key next : Field} {ok : Bool} (h : Reading values p (.settled key ok))
    (hnext : key.next = some next) : Reading values p (.calling next (values.get next)) where
  value k v hv := by
    cases hv
    apply h.rest
    simp [SetData.key, Field.rank_next hnext]
  rest f hf := by
    apply h.rest
    simp only [SetData.key, Field.rank_next hnext] at hf ⊢
    omega

end Reading

theorem SaveOf.keep {values values' p : Profile (Option JsString)} {s : SetData}
    (h : SaveOf st values p s)
    (hvalues : ∀ f : Field, s.key.rank < f.rank → values'.get f = values.get f) :
    SaveOf st values' p s where
  toReading := h.toReading.keep hvalues
  succeeded := h.succeeded
  stored := h.stored

theorem SaveOf.start (st : Storage) (s : State) :
    SaveOf st s.values s.values (setData s) where
  toReading := .start s
  succeeded _ := by simp [setData]
  stored hp := absurd hp.1 (Nat.lt_irrefl 0)

theorem SaveOf.next {values p : Profile (Option JsString)} {key next : Field}
    (h : SaveOf st values p (.settled key true)) (hnext : key.next = some next) :
    SaveOf st values p (.calling next (values.get next)) where
  toReading := h.toReading.next hnext
  succeeded _ := by simp
  stored hp f hf := by
    have hcount : (SetData.settled key true).count = next.rank := (Field.rank_next hnext).symm
    apply h.stored
    · rw [SetData.PartWay, hcount]
      exact hp
    · rw [hcount]
      exact hf

theorem SaveOf.store {values p : Profile (Option JsString)} {key : Field} {v : JsString}
    (h : SaveOf st values p (.calling key (some v))) :
    SaveOf (st.setItem key.key v) values p (.settled key true) ∧
      ∀ f : Field, f.rank ≤ key.rank → st.setItem key.key v f.key = p.get f := by
  have hstored : ∀ f : Field, f.rank ≤ key.rank → st.setItem key.key v f.key = p.get f := by
    intro f hf
    by_cases hkey : f = key
    · subst hkey
      exact (Function.update_self _ _ _).trans (h.value _ _ rfl)
    · have hlt : f.rank < key.rank :=
        Nat.lt_of_le_of_ne hf fun heq => hkey (Field.rank_injective heq)
      rw [Storage.setItem, Function.update_of_ne fun heq => hkey (Field.key_injective heq)]
      exact h.stored ⟨by simp [SetData.count]; omega, key.rank_lt⟩ f hlt
  refine ⟨⟨h.toReading.settle true, by simp, ?_⟩, hstored⟩
  intro _ f hf
  exact hstored f (Nat.le_of_lt_succ hf)

theorem SaveOf.other {st' : Storage} {values p : Profile (Option JsString)} {s : SetData}
    (h : SaveOf st values p s) (hs : ¬ s.PartWay) : SaveOf st' values p s where
  toReading := h.toReading
  succeeded := h.succeeded
  stored hp := absurd hp hs

theorem LoadOf.other {st' : Storage} {saving' : Prop} {l : Load} (h : LoadOf st profiles saving l)
    (hl : ¬ l.PartWay) : LoadOf st' profiles saving' l where
  succeeded := h.succeeded
  partWay hp := absurd hp hl
  whole := h.whole

theorem StorageOf.got (h : StorageOf st profiles) {got : Profile (Option JsString)}
    (hgot : ∀ f : Field, got.get f = st f.key) : got = .replicate none ∨ got ∈ profiles := by
  rcases h with hnone | ⟨p, hp, hst⟩
  · refine .inl (Profile.ext_get fun f => ?_)
    rw [hgot f, hnone f, Profile.get_replicate]
  · have heq : got = p := Profile.ext_get fun f => (hgot f).trans (hst f)
    exact .inr (heq ▸ hp)

theorem GetData.got_settle {point : GetData}
    (h : ∀ f : Field, f.rank < point.key.rank → point.got.get f = st f.key) :
    ∀ f : Field, f.rank < point.key.rank + 1 →
      (point.got.set point.key (st point.key.key)).get f = st f.key := by
  intro f hf
  by_cases hkey : f = point.key
  · subst hkey
    exact Profile.get_set_self _ _ _
  · have hlt : f.rank < point.key.rank :=
      Nat.lt_of_le_of_ne (Nat.le_of_lt_succ hf) fun heq => hkey (Field.rank_injective heq)
    rw [Profile.get_set_of_ne _ _ hkey]
    exact h f hlt

theorem LoadOf.settle {point : GetData} (h : LoadOf st profiles saving (.calling point))
    (hsaving : ¬ saving) (hst : StorageOf st profiles) :
    LoadOf st profiles saving (.settled point (.fulfilled (st point.key.key))) := by
  have hgot := GetData.got_settle fun f hf =>
    (h.partWay ⟨by simp [Load.count]; omega, point.key.rank_lt⟩).2 f hf
  refine ⟨by simp, fun _ => ⟨hsaving, hgot⟩, ?_⟩
  intro hcount
  apply hst.got
  intro f
  apply hgot
  have := f.rank_lt
  simp only [Load.count] at hcount
  omega

theorem LoadOf.next {point next : GetData} {value : Option JsString}
    (h : LoadOf st profiles saving (.settled point (.fulfilled value)))
    (hnext : point.resume value = .inl next) : LoadOf st profiles saving (.calling next) := by
  obtain ⟨hrank, hgot⟩ := GetData.resume_inl hnext
  have hcount : (Load.settled point (.fulfilled value)).count = next.key.rank := hrank.symm
  refine ⟨by simp, ?_, ?_⟩
  · intro hp
    rw [Load.PartWay, Load.count, ← hcount] at hp
    obtain ⟨hsaving, hagree⟩ := h.partWay hp
    refine ⟨hsaving, fun f hf => ?_⟩
    simp only [Load.got, hgot]
    rw [Load.count, ← hcount] at hf
    exact hagree f hf
  · intro hfour
    exact absurd hfour (Nat.ne_of_lt next.key.rank_lt)

theorem HomeOf.fresh (st : Storage) (profiles : List (Profile (Option JsString))) (saving : Prop) :
    HomeOf st profiles saving {} where
  saves _ hs := by cases hs
  load l hl := by
    cases hl
    exact ⟨by simp, fun hp => absurd hp.1 (by decide), fun hcount => absurd hcount (by decide)⟩

theorem HomeOf.mono {m : List (Profile (Option JsString))} {saving' : Prop} {h : Instance}
    (hh : HomeOf st profiles saving h) (hsaving : saving' → saving) :
    HomeOf st (profiles ++ m) saving' h where
  saves s hs := by
    obtain ⟨p, hp, hsave⟩ := hh.saves s hs
    exact ⟨p, List.mem_append_left m hp, hsave⟩
  load l hl := by
    have hload := hh.load l hl
    refine ⟨hload.succeeded, ?_, ?_⟩
    · intro hp
      exact ⟨fun hs => (hload.partWay hp).1 (hsaving hs), (hload.partWay hp).2⟩
    · intro hcount
      exact (hload.whole hcount).imp id (List.mem_append_left m)

theorem HomeOf.keep {h : Instance} {values : Profile (Option JsString)}
    (hh : HomeOf st profiles saving h)
    (hvalues : ∀ s ∈ h.saves, ∀ f : Field, s.key.rank < f.rank →
      values.get f = h.state.values.get f) :
    ∀ s ∈ h.saves, ∃ p ∈ profiles, SaveOf st values p s := by
  intro s hs
  obtain ⟨p, hp, hsave⟩ := hh.saves s hs
  exact ⟨p, hp, hsave.keep (hvalues s hs)⟩

theorem exists_partWay_set {saves : List SetData} {i : Nat} {s s' : SetData}
    (hi : saves[i]? = some s) (hsame : s'.PartWay ↔ s.PartWay) :
    (∃ x ∈ saves.set i s', x.PartWay) ↔ ∃ x ∈ saves, x.PartWay := by
  obtain ⟨hlt, -⟩ := List.getElem?_eq_some_iff.mp hi
  constructor
  · rintro ⟨x, hx, hp⟩
    rcases List.mem_or_eq_of_mem_set hx with hx | rfl
    · exact ⟨x, hx, hp⟩
    · exact ⟨s, List.mem_of_getElem? hi, hsame.mp hp⟩
  · rintro ⟨x, hx, hp⟩
    obtain ⟨j, hj⟩ := List.mem_iff_getElem?.mp hx
    by_cases hij : i = j
    · subst hij
      cases hi.symm.trans hj
      exact ⟨s', List.mem_set hlt s', hsame.mpr hp⟩
    · exact ⟨x, List.mem_of_getElem? (i := j) (by rw [List.getElem?_set_ne hij, hj]), hp⟩

theorem exists_partWay_eraseIdx {saves : List SetData} {i : Nat} {s : SetData}
    (hi : saves[i]? = some s) (hs : ¬ s.PartWay) :
    (∃ x ∈ saves.eraseIdx i, x.PartWay) ↔ ∃ x ∈ saves, x.PartWay := by
  constructor
  · rintro ⟨x, hx, hp⟩
    exact ⟨x, List.mem_of_mem_eraseIdx hx, hp⟩
  · rintro ⟨x, hx, hp⟩
    obtain ⟨j, hj⟩ := List.mem_iff_getElem?.mp hx
    refine ⟨x, List.mem_eraseIdx_iff_getElem?.mpr ⟨j, ?_, hj⟩, hp⟩
    rintro rfl
    cases hi.symm.trans hj
    exact hs hp

end QuizApp.Home
