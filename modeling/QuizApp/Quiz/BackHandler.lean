import QuizApp.Machine.Run
import QuizApp.Platform

/-! The hardware back handler of `QuizScreen` over the lifetimes of its instances.
`handleBackButton` is a method of the prototype, so every instance registers the one
handler of that name; `other` stands for the handlers of other components. -/

namespace QuizApp.Quiz

inductive Handler
  | handleBackButton
  | other (id : Nat)
  deriving DecidableEq

def addEventListener (handlers : List Handler) (handler : Handler) : List Handler :=
  if handler ∈ handlers then handlers else handlers ++ [handler]

def removeEventListener (handlers : List Handler) (handler : Handler) : List Handler :=
  handlers.erase handler

def componentDidMount (handlers : List Handler) : List Handler :=
  addEventListener handlers .handleBackButton

def componentWillUnmount (handlers : List Handler) : List Handler :=
  removeEventListener handlers .handleBackButton

-- the result `true` stops the press from reaching any other handler
def handleBackButton : Bool × List Effect := (true, [.alert "Please Complete Quiz"])

theorem mem_componentDidMount (handlers : List Handler) :
    .handleBackButton ∈ componentDidMount handlers := by
  by_cases h : Handler.handleBackButton ∈ handlers <;>
    simp [componentDidMount, addEventListener, h]

theorem count_componentDidMount {handlers : List Handler}
    (h : handlers.count .handleBackButton ≤ 1) :
    (componentDidMount handlers).count .handleBackButton ≤ 1 := by
  rw [componentDidMount, addEventListener]
  split
  · exact h
  · rename_i hmem
    simp [List.count_append, List.count_eq_zero_of_not_mem hmem]

theorem count_componentWillUnmount {handlers : List Handler}
    (h : handlers.count .handleBackButton ≤ 1) :
    (componentWillUnmount handlers).count .handleBackButton = 0 := by
  rw [componentWillUnmount, removeEventListener, List.count_erase_self]
  omega

namespace BackHandler

structure State where
  mounted : List Nat := []
  handlers : List Handler

inductive Event
  | mount (id : Nat)
  | unmount (id : Nat)
  deriving DecidableEq

def machine : Machine State Event where
  step s
    | .mount id =>
      if id ∈ s.mounted then none
      else some { mounted := s.mounted ++ [id], handlers := componentDidMount s.handlers }
    | .unmount id =>
      if id ∈ s.mounted then
        some { mounted := s.mounted.erase id, handlers := componentWillUnmount s.handlers }
      else none

def start (others : List Nat) : State := { handlers := others.map .other }

def Blocked (s : State) (_ : List Unit) : Prop :=
  .handleBackButton ∈ s.handlers ↔ s.mounted ≠ []

def UnmountsAlone (s : State) (_ : List Unit) (e : Event) : Prop :=
  ∀ id, e = .unmount id → s.mounted = [id]

instance (s : State) (l : List Unit) : Decidable (Blocked s l) :=
  inferInstanceAs (Decidable (_ ↔ _))

structure Kept (s : State) (l : List Unit) : Prop where
  blocked : Blocked s l
  once : s.handlers.count .handleBackButton ≤ 1

theorem Kept.start (others : List Nat) : Kept (start others) [] where
  blocked := by simp [Blocked, BackHandler.start]
  once := by simp [BackHandler.start, List.count_eq_zero_of_not_mem]

theorem Kept.step {s t : State} {l m : List Unit} {e : Event} (h : Kept s l)
    (halone : UnmountsAlone s l e) (hstep : machine.step s e = some t) : Kept t m := by
  cases e with
  | mount id =>
    simp only [machine] at hstep
    split at hstep <;> cases hstep
    exact {
      blocked := by simp [Blocked, mem_componentDidMount]
      once := count_componentDidMount h.once }
  | unmount id =>
    have hcount := count_componentWillUnmount h.once
    simp only [machine] at hstep
    split at hstep <;> cases hstep
    exact {
      blocked := by
        simp [Blocked, halone id rfl, List.count_eq_zero.mp hcount]
      once := by
        rw [hcount]
        exact Nat.zero_le 1 }

theorem unmountsAlone_of_blocked {s t : State} {l m : List Unit} {e : Event} (h : Kept s l)
    (hstep : machine.step s e = some t) (hblocked : Blocked t m) : UnmountsAlone s l e := by
  rintro id rfl
  have hcount := count_componentWillUnmount h.once
  simp only [machine] at hstep
  split at hstep <;> cases hstep
  rename_i hmem
  have herase : s.mounted.erase id = [] := by
    by_contra hn
    exact List.count_eq_zero.mp hcount (hblocked.mpr hn)
  have hperm := List.perm_cons_erase hmem
  rw [herase] at hperm
  exact List.perm_singleton.mp hperm

/-- Back stays blocked exactly in the runs in which an instance never unmounts while
another one is mounted. -/
theorem blocked_iff_unmountsAlone (others : List Nat) (es : List Event) :
    machine.Always Machine.unobserved Blocked (start others) es ↔
      machine.Meets Machine.unobserved UnmountsAlone (start others) es :=
  Machine.always_iff_meets (Kept.start others) (fun _ _ _ _ h halone hstep => h.step halone hstep)
    (fun _ _ h => h.blocked)
    (fun _ _ _ _ h hstep hblocked => unmountsAlone_of_blocked h hstep hblocked) es

theorem overlap_unblocks :
    ¬ machine.Always Machine.unobserved Blocked (start []) [.mount 0, .mount 1, .unmount 0] := by
  intro h
  have hend : machine.run (start []) [.mount 0, .mount 1, .unmount 0] =
      some { mounted := [1], handlers := [] } := rfl
  have hblocked := h _ (List.prefix_refl _) _ hend
  revert hblocked
  decide

end BackHandler

end QuizApp.Quiz
