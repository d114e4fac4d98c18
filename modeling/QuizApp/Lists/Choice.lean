import Mathlib.Data.Bool.Basic
import Mathlib.Data.List.Basic

universe u v

namespace Choice

variable {ι : Type u} {κ : Type v} (hit : ι → κ → Bool) (choices : List κ)

def hits (is : List ι) (ks : List κ) : Nat := (ks.zip is).countP fun p => hit p.2 p.1

def sure (is : List ι) : Nat := is.countP fun i => choices.all (hit i)

def possible (is : List ι) : Nat := is.countP fun i => choices.any (hit i)

structure Picks (is : List ι) (ks : List κ) : Prop where
  length_eq : ks.length = is.length
  mem : ∀ k ∈ ks, k ∈ choices

variable {hit choices} {i : ι} {is : List ι} {k : κ} {ks : List κ}

theorem hits_cons : hits hit (i :: is) (k :: ks) = hits hit is ks + (hit i k).toNat := by
  cases h : hit i k <;> simp [hits, h]

theorem sure_cons : sure hit choices (i :: is) =
    sure hit choices is + (choices.all (hit i)).toNat := by
  cases h : choices.all (hit i) <;> simp [sure, h]

theorem possible_cons : possible hit choices (i :: is) =
    possible hit choices is + (choices.any (hit i)).toNat := by
  cases h : choices.any (hit i) <;> simp [possible, h]

theorem Picks.nil : Picks choices ([] : List ι) [] := ⟨rfl, by simp⟩

theorem Picks.cons (hk : k ∈ choices) (h : Picks choices is ks) :
    Picks choices (i :: is) (k :: ks) := by
  refine ⟨by simp [h.length_eq], ?_⟩
  simpa [hk] using h.mem

theorem Picks.hits_bounds (h : Picks choices is ks) :
    sure hit choices is ≤ hits hit is ks ∧ hits hit is ks ≤ possible hit choices is := by
  induction is generalizing ks with
  | nil => simp [sure, possible, hits]
  | cons i is ih =>
    cases ks with
    | nil => cases h.length_eq
    | cons k ks =>
      have hk : k ∈ choices := h.mem k (by simp)
      have htail : Picks choices is ks := by
        refine ⟨by simpa using h.length_eq, ?_⟩
        intro x hx
        exact h.mem x (List.mem_cons_of_mem k hx)
      have hall : (choices.all (hit i)).toNat ≤ (hit i k).toNat := by
        apply Bool.toNat_le_toNat
        intro hall
        exact List.all_eq_true.mp hall k hk
      have hany : (hit i k).toNat ≤ (choices.any (hit i)).toNat := by
        apply Bool.toNat_le_toNat
        intro hit
        exact List.any_eq_true.mpr ⟨k, hk, hit⟩
      have := ih htail
      rw [hits_cons, sure_cons, possible_cons]
      omega

theorem any_of_all (hne : choices ≠ []) (h : choices.all (hit i) = true) :
    choices.any (hit i) = true := by
  obtain ⟨k, hk⟩ := List.exists_mem_of_ne_nil choices hne
  exact List.any_eq_true.mpr ⟨k, hk, List.all_eq_true.mp h k hk⟩

theorem sure_le_possible (hne : choices ≠ []) (is : List ι) :
    sure hit choices is ≤ possible hit choices is :=
  List.countP_mono_left fun _ _ h => any_of_all hne h

theorem exists_picks (hne : choices ≠ []) (is : List ι) {n : Nat}
    (hlow : sure hit choices is ≤ n) (hhigh : n ≤ possible hit choices is) :
    ∃ ks, Picks choices is ks ∧ hits hit is ks = n := by
  induction is generalizing n with
  | nil =>
    have hzero : n = 0 := Nat.le_zero.mp hhigh
    exact ⟨[], .nil, hzero.symm⟩
  | cons i is ih =>
    rw [sure_cons] at hlow
    rw [possible_cons] at hhigh
    have hle : sure hit choices is ≤ possible hit choices is := sure_le_possible hne is
    -- a hit is taken here only where every choice is one or the rest does not reach `n`
    by_cases hmiss : choices.all (hit i) = false ∧ n ≤ possible hit choices is
    · rw [hmiss.1] at hlow
      obtain ⟨k, hk, hfalse⟩ := List.all_eq_false.mp hmiss.1
      obtain ⟨ks, hpicks, hhits⟩ := ih hlow hmiss.2
      refine ⟨k :: ks, hpicks.cons hk, ?_⟩
      rw [hits_cons, hhits, Bool.not_eq_true _ |>.mp hfalse]
      rfl
    · have hany : choices.any (hit i) = true := by
        cases hall : choices.all (hit i) with
        | true => exact any_of_all hne hall
        | false =>
          cases hany : choices.any (hit i) with
          | true => rfl
          | false =>
            rw [hany] at hhigh
            exact absurd ⟨hall, hhigh⟩ hmiss
      rw [hany] at hhigh
      obtain ⟨k, hk, htrue⟩ := List.any_eq_true.mp hany
      have hpred : sure hit choices is ≤ n - 1 ∧ n - 1 ≤ possible hit choices is ∧ 1 ≤ n := by
        cases hall : choices.all (hit i) with
        | true =>
          rw [hall] at hlow
          simp only [Bool.toNat_true] at hlow hhigh
          omega
        | false =>
          have hlarge : ¬ n ≤ possible hit choices is := fun h => hmiss ⟨hall, h⟩
          simp only [Bool.toNat_true] at hhigh
          omega
      obtain ⟨ks, hpicks, hhits⟩ := ih hpred.1 hpred.2.1
      refine ⟨k :: ks, hpicks.cons hk, ?_⟩
      rw [hits_cons, hhits, htrue]
      exact Nat.sub_add_cancel hpred.2.2

end Choice
