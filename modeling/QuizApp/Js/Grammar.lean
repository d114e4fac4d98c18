import QuizApp.Js.Number

namespace QuizApp.Js

inductive Exponent : JsString → Int → Prop
  | absent : Exponent [] 0
  | plain {c : UInt16} {ds : JsString} : c = unit 'e' ∨ c = unit 'E' → isDigits isDigit ds = true →
      Exponent (c :: ds) (digitsValue 10 ds)
  | plus {c : UInt16} {ds : JsString} : c = unit 'e' ∨ c = unit 'E' → isDigits isDigit ds = true →
      Exponent (c :: unit '+' :: ds) (digitsValue 10 ds)
  | minus {c : UInt16} {ds : JsString} : c = unit 'e' ∨ c = unit 'E' → isDigits isDigit ds = true →
      Exponent (c :: unit '-' :: ds) (-digitsValue 10 ds)

inductive UnsignedDecimal : JsString → Magnitude → Prop
  | infinity : UnsignedDecimal (.lit "Infinity") .infinity
  | point {ds fs ex : JsString} {e : Int} : isDigits isDigit ds = true → fs.all isDigit = true →
      Exponent ex e →
      UnsignedDecimal (ds ++ unit '.' :: (fs ++ ex))
        (.scaled (digitsValue 10 (ds ++ fs)) (e - fs.length))
  | fraction {fs ex : JsString} {e : Int} : isDigits isDigit fs = true → Exponent ex e →
      UnsignedDecimal (unit '.' :: (fs ++ ex)) (.scaled (digitsValue 10 fs) (e - fs.length))
  | whole {ds ex : JsString} {e : Int} : isDigits isDigit ds = true → Exponent ex e →
      UnsignedDecimal (ds ++ ex) (.scaled (digitsValue 10 ds) e)

inductive NumericLiteral : JsString → Bool → Magnitude → Prop
  | unsigned {s : JsString} {m : Magnitude} : UnsignedDecimal s m → NumericLiteral s false m
  | plus {s : JsString} {m : Magnitude} : UnsignedDecimal s m →
      NumericLiteral (unit '+' :: s) false m
  | minus {s : JsString} {m : Magnitude} : UnsignedDecimal s m →
      NumericLiteral (unit '-' :: s) true m
  | hex {x : UInt16} {ds : JsString} : x = unit 'x' ∨ x = unit 'X' →
      isDigits isHexDigit ds = true →
      NumericLiteral (unit '0' :: x :: ds) false (.scaled (digitsValue 16 ds) 0)
  | octal {x : UInt16} {ds : JsString} : x = unit 'o' ∨ x = unit 'O' →
      isDigits isOctalDigit ds = true →
      NumericLiteral (unit '0' :: x :: ds) false (.scaled (digitsValue 8 ds) 0)
  | binary {x : UInt16} {ds : JsString} : x = unit 'b' ∨ x = unit 'B' →
      isDigits isBinaryDigit ds = true →
      NumericLiteral (unit '0' :: x :: ds) false (.scaled (digitsValue 2 ds) 0)

inductive StringNumericLiteral : JsString → Number → Prop
  | blank {s : JsString} : s.all isWhiteSpace = true → StringNumericLiteral s (.finite false 0 0)
  | literal {before s after : JsString} {negative : Bool} {m : Magnitude} :
      before.all isWhiteSpace = true → NumericLiteral s negative m →
      after.all isWhiteSpace = true →
      StringNumericLiteral (before ++ s ++ after) (m.toNumber negative)

theorem ne_of_isDigit {c d : UInt16} (hc : isDigit c = true) (hd : isDigit d = false) : c ≠ d := by
  rintro rfl
  rw [hc] at hd
  cases hd

theorem isDigits_eq_true {digit : UInt16 → Bool} {s : JsString} :
    isDigits digit s = true ↔ s ≠ [] ∧ s.all digit = true := by
  simp [isDigits]

theorem exists_cons_of_isDigits {digit : UInt16 → Bool} {s : JsString}
    (h : isDigits digit s = true) : ∃ c t, s = c :: t ∧ digit c = true := by
  cases s with
  | nil => cases h
  | cons c t =>
    simp only [isDigits, List.all_cons, Bool.and_eq_true] at h
    exact ⟨c, t, rfl, h.2.1⟩

theorem span_isDigit {ds : JsString} (rest : JsString) (hds : ds.all isDigit = true)
    (hrest : ∀ c t, rest = c :: t → isDigit c = false) :
    (ds ++ rest).takeWhile isDigit = ds ∧ (ds ++ rest).dropWhile isDigit = rest := by
  have hds := List.all_eq_true.mp hds
  rw [List.takeWhile_append_of_pos hds, List.dropWhile_append_of_pos hds]
  cases rest with
  | nil => simp
  | cons c t => simp [hrest c t rfl]

theorem exists_span (s : JsString) : ∃ ds rest, s = ds ++ rest ∧ ds.all isDigit = true ∧
    ∀ c t, rest = c :: t → isDigit c = false := by
  refine ⟨s.takeWhile isDigit, s.dropWhile isDigit, List.takeWhile_append_dropWhile.symm,
    List.all_takeWhile, ?_⟩
  intro c t h
  have hhead := List.head?_dropWhile_not isDigit s
  rw [h] at hhead
  simpa using hhead

theorem plus_ne_minus : unit '+' ≠ unit '-' := by decide

theorem sign_cases (s : JsString) :
    (s = unit '+' :: dropSign s ∧ isNegative s = false) ∨
      (s = unit '-' :: dropSign s ∧ isNegative s = true) ∨
      (s = dropSign s ∧ isNegative s = false) := by
  cases s with
  | nil => exact .inr (.inr ⟨rfl, rfl⟩)
  | cons c t =>
    by_cases hplus : c = unit '+'
    · subst hplus
      exact .inl ⟨by simp [dropSign], by simp [isNegative, plus_ne_minus]⟩
    · by_cases hminus : c = unit '-'
      · subst hminus
        exact .inr (.inl ⟨by simp [dropSign], by simp [isNegative]⟩)
      · exact .inr (.inr ⟨by simp [dropSign, hplus, hminus], by simp [isNegative, hminus]⟩)

theorem exponent_iff (s : JsString) (e : Int) :
    Exponent s e ↔ isExponent s = true ∧ exponentValue s = e := by
  constructor
  · intro h
    cases h with
    | absent => exact ⟨rfl, rfl⟩
    | @plain c ds hc hds =>
      obtain ⟨d, t, rfl, hd⟩ := exists_cons_of_isDigits hds
      have hplus := ne_of_isDigit hd (d := unit '+') (by decide)
      have hminus := ne_of_isDigit hd (d := unit '-') (by decide)
      refine ⟨?_, ?_⟩
      · simpa [isExponent, dropSign, hplus, hminus, hds] using hc
      · simp [exponentValue, hplus, hminus]
    | plus hc hds =>
      exact ⟨by simpa [isExponent, dropSign, hds] using hc, by simp [exponentValue, plus_ne_minus]⟩
    | minus hc hds =>
      exact ⟨by simpa [isExponent, dropSign, hds] using hc, by simp [exponentValue]⟩
  · rintro ⟨h, rfl⟩
    cases s with
    | nil => exact .absent
    | cons c t =>
      simp only [isExponent, Bool.and_eq_true, Bool.or_eq_true, beq_iff_eq] at h
      obtain ⟨hc, hds⟩ := h
      obtain ⟨d, u, hdrop, hd⟩ := exists_cons_of_isDigits hds
      have hplus := ne_of_isDigit hd (d := unit '+') (by decide)
      have hminus := ne_of_isDigit hd (d := unit '-') (by decide)
      rw [hdrop] at hds
      obtain ⟨ht, -⟩ | ⟨ht, -⟩ | ⟨ht, -⟩ := sign_cases t
      · rw [ht, hdrop]
        have := Exponent.plus hc hds
        simpa [exponentValue, plus_ne_minus] using this
      · rw [ht, hdrop]
        have := Exponent.minus hc hds
        simpa [exponentValue] using this
      · rw [ht, hdrop]
        have := Exponent.plain hc hds
        simpa [exponentValue, hplus, hminus] using this

theorem Exponent.head {c : UInt16} {t : JsString} {e : Int} (h : Exponent (c :: t) e) :
    c = unit 'e' ∨ c = unit 'E' := by
  cases h with
  | plain hc => exact hc
  | plus hc => exact hc
  | minus hc => exact hc

theorem Exponent.stops {s : JsString} {e : Int} (h : Exponent s e) :
    ∀ c t, s = c :: t → isDigit c = false := by
  rintro c t rfl
  rcases h.head with rfl | rfl <;> decide

theorem unsignedDecimal_point {ds fs ex : JsString} {e : Int} (hds : ds.all isDigit = true)
    (hfs : fs.all isDigit = true) (hex : Exponent ex e) :
    isUnsignedDecimal (ds ++ unit '.' :: (fs ++ ex)) = (!ds.isEmpty || !fs.isEmpty) ∧
      unsignedDecimalValue (ds ++ unit '.' :: (fs ++ ex)) =
        .scaled (digitsValue 10 (ds ++ fs)) (e - fs.length) := by
  obtain ⟨htake, hdrop⟩ := span_isDigit (unit '.' :: (fs ++ ex)) hds
    (by rintro c t ⟨⟩; decide)
  obtain ⟨htake', hdrop'⟩ := span_isDigit ex hfs hex.stops
  obtain ⟨hexp, rfl⟩ := (exponent_iff ex e).mp hex
  refine ⟨?_, ?_⟩
  · simp [isUnsignedDecimal, htake, hdrop, htake', hdrop', hexp]
  · simp [unsignedDecimalValue, htake, hdrop, htake', hdrop']

theorem unsignedDecimal_whole {ds ex : JsString} {e : Int} (hds : ds.all isDigit = true)
    (hex : Exponent ex e) :
    isUnsignedDecimal (ds ++ ex) = !ds.isEmpty ∧
      unsignedDecimalValue (ds ++ ex) = .scaled (digitsValue 10 ds) e := by
  obtain ⟨htake, hdrop⟩ := span_isDigit ex hds hex.stops
  obtain ⟨hexp, rfl⟩ := (exponent_iff ex e).mp hex
  cases ex with
  | nil =>
    rw [List.append_nil] at htake hdrop
    refine ⟨?_, ?_⟩
    · simp [isUnsignedDecimal, htake, hdrop]
    · simp [unsignedDecimalValue, htake, hdrop, exponentValue]
  | cons c t =>
    have hdot : (c == unit '.') = false := by rcases hex.head with rfl | rfl <;> decide
    refine ⟨?_, ?_⟩
    · simp [isUnsignedDecimal, htake, hdrop, hdot, hexp]
    · simp [unsignedDecimalValue, htake, hdrop, hdot]

theorem unsignedDecimal_iff (s : JsString) (m : Magnitude) :
    UnsignedDecimal s m ↔ (s = .lit "Infinity" ∧ m = .infinity) ∨
      (isUnsignedDecimal s = true ∧ unsignedDecimalValue s = m) := by
  constructor
  · intro h
    cases h with
    | infinity => exact .inl ⟨rfl, rfl⟩
    | point hds hfs hex =>
      have hds := isDigits_eq_true.mp hds
      obtain ⟨his, hvalue⟩ := unsignedDecimal_point hds.2 hfs hex
      exact .inr ⟨by simp [his, hds.1], hvalue⟩
    | fraction hfs hex =>
      have hfs := isDigits_eq_true.mp hfs
      obtain ⟨his, hvalue⟩ := @unsignedDecimal_point [] _ _ _ rfl hfs.2 hex
      exact .inr ⟨his.trans (by simp [hfs.1]), hvalue⟩
    | whole hds hex =>
      have hds := isDigits_eq_true.mp hds
      obtain ⟨his, hvalue⟩ := unsignedDecimal_whole hds.2 hex
      exact .inr ⟨by simp [his, hds.1], hvalue⟩
  · rintro (⟨rfl, rfl⟩ | ⟨his, rfl⟩)
    · exact .infinity
    · obtain ⟨ds, rest, rfl, hds, hstop⟩ := exists_span s
      obtain ⟨htake, hdrop⟩ := span_isDigit rest hds hstop
      simp only [isUnsignedDecimal, htake, hdrop] at his
      cases rest with
      | nil =>
        rw [(unsignedDecimal_whole hds .absent).2]
        exact .whole (isDigits_eq_true.mpr ⟨by simpa using his, hds⟩) .absent
      | cons c t =>
        by_cases hc : c = unit '.'
        · subst hc
          obtain ⟨fs, ex, rfl, hfs, hstop'⟩ := exists_span t
          obtain ⟨htake', hdrop'⟩ := span_isDigit ex hfs hstop'
          simp only [beq_self_eq_true, if_true, htake', hdrop', Bool.and_eq_true] at his
          have hex := (exponent_iff ex _).mpr ⟨his.2, rfl⟩
          rw [(unsignedDecimal_point hds hfs hex).2]
          by_cases hempty : ds = []
          · subst hempty
            exact .fraction (isDigits_eq_true.mpr ⟨by simpa using his.1, hfs⟩) hex
          · exact .point (isDigits_eq_true.mpr ⟨hempty, hds⟩) hfs hex
        · simp only [beq_iff_eq, hc, if_false, Bool.and_eq_true] at his
          have hex := (exponent_iff (c :: t) _).mpr ⟨his.2, rfl⟩
          rw [(unsignedDecimal_whole hds hex).2]
          exact .whole (isDigits_eq_true.mpr ⟨by simpa using his.1, hds⟩) hex

theorem UnsignedDecimal.head {s : JsString} {m : Magnitude} (h : UnsignedDecimal s m) :
    ∃ c t, s = c :: t ∧ c ≠ unit '+' ∧ c ≠ unit '-' := by
  cases h with
  | infinity => exact ⟨_, _, rfl, by decide, by decide⟩
  | fraction => exact ⟨_, _, rfl, by decide, by decide⟩
  | point hds =>
    obtain ⟨c, t, rfl, hc⟩ := exists_cons_of_isDigits hds
    exact ⟨_, _, rfl, ne_of_isDigit hc (by decide), ne_of_isDigit hc (by decide)⟩
  | whole hds =>
    obtain ⟨c, t, rfl, hc⟩ := exists_cons_of_isDigits hds
    exact ⟨_, _, rfl, ne_of_isDigit hc (by decide), ne_of_isDigit hc (by decide)⟩

theorem numericLiteral?_of_unsignedDecimal {s : JsString} {m : Magnitude}
    (h : UnsignedDecimal (dropSign s) m) : numericLiteral? s = some (isNegative s, m) := by
  obtain ⟨hinf, rfl⟩ | ⟨his, rfl⟩ := (unsignedDecimal_iff _ m).mp h
  · simp [numericLiteral?, hinf]
  · have hne : dropSign s ≠ JsString.lit "Infinity" := by
      intro heq
      rw [heq] at his
      revert his
      decide
    simp [numericLiteral?, hne, his]

theorem numericLiteral?_of_nonDecimal {x : UInt16} {ds : JsString}
    (hx : x ∈ [unit 'x', unit 'X', unit 'o', unit 'O', unit 'b', unit 'B'])
    (his : isNonDecimalLiteral (unit '0' :: x :: ds) = true) :
    numericLiteral? (unit '0' :: x :: ds) =
      some (false, .scaled (digitsValue (nonDecimalBase (unit '0' :: x :: ds)) ds) 0) := by
  have hsign : dropSign (unit '0' :: x :: ds) = unit '0' :: x :: ds := by
    simp [dropSign, show unit '0' ≠ unit '+' by decide, show unit '0' ≠ unit '-' by decide]
  have hdigit : isDigit x = false ∧ x ≠ unit '.' ∧ x ≠ unit 'e' ∧ x ≠ unit 'E' := by
    simp only [List.mem_cons, List.not_mem_nil, or_false] at hx
    rcases hx with rfl | rfl | rfl | rfl | rfl | rfl <;> decide
  have hdecimal : isUnsignedDecimal (unit '0' :: x :: ds) = false := by
    simp [isUnsignedDecimal, isExponent, hdigit, show isDigit (unit '0') = true by decide]
  have hinf : unit '0' :: x :: ds ≠ JsString.lit "Infinity" := by
    intro heq
    exact absurd (List.cons.inj heq).1 (by decide)
  simp [numericLiteral?, hsign, hdecimal, hinf, his]

theorem NumericLiteral.of_unsignedDecimal {s : JsString} {m : Magnitude}
    (h : UnsignedDecimal (dropSign s) m) : NumericLiteral s (isNegative s) m := by
  obtain ⟨hs, hneg⟩ | ⟨hs, hneg⟩ | ⟨hs, hneg⟩ := sign_cases s
  · rw [hneg, hs]
    exact .plus h
  · rw [hneg, hs]
    exact .minus h
  · rw [hneg, hs]
    exact .unsigned h

theorem NumericLiteral.of_nonDecimal {s : JsString} (h : isNonDecimalLiteral s = true) :
    NumericLiteral s false (.scaled (digitsValue (nonDecimalBase s) (s.drop 2)) 0) := by
  match s with
  | [] => cases h
  | [_] => cases h
  | z :: x :: ds =>
    simp only [isNonDecimalLiteral, Bool.and_eq_true, Bool.or_eq_true, beq_iff_eq] at h
    obtain ⟨rfl, (⟨hx, hds⟩ | ⟨hx, hds⟩) | ⟨hx, hds⟩⟩ := h
    · rcases hx with rfl | rfl
      · exact .hex (.inl rfl) hds
      · exact .hex (.inr rfl) hds
    · rcases hx with rfl | rfl
      · exact .octal (.inl rfl) hds
      · exact .octal (.inr rfl) hds
    · rcases hx with rfl | rfl
      · exact .binary (.inl rfl) hds
      · exact .binary (.inr rfl) hds

theorem numericLiteral_iff (s : JsString) (negative : Bool) (m : Magnitude) :
    NumericLiteral s negative m ↔ numericLiteral? s = some (negative, m) := by
  constructor
  · intro h
    cases h with
    | unsigned h =>
      obtain ⟨c, t, rfl, hplus, hminus⟩ := h.head
      have hsign : dropSign (c :: t) = c :: t := by simp [dropSign, hplus, hminus]
      rw [numericLiteral?_of_unsignedDecimal (hsign.symm ▸ h)]
      simp [isNegative, hminus]
    | plus h => exact numericLiteral?_of_unsignedDecimal (by simpa [dropSign] using h)
    | minus h => exact numericLiteral?_of_unsignedDecimal (by simpa [dropSign] using h)
    | hex hx hds =>
      rcases hx with rfl | rfl <;>
        exact numericLiteral?_of_nonDecimal (by decide) (by simp [isNonDecimalLiteral, hds])
    | octal hx hds =>
      rcases hx with rfl | rfl <;>
        exact numericLiteral?_of_nonDecimal (by decide) (by simp [isNonDecimalLiteral, hds])
    | binary hx hds =>
      rcases hx with rfl | rfl <;>
        exact numericLiteral?_of_nonDecimal (by decide) (by simp [isNonDecimalLiteral, hds])
  · intro h
    simp only [numericLiteral?, beq_iff_eq] at h
    split at h
    · rename_i hinf
      cases h
      exact .of_unsignedDecimal ((unsignedDecimal_iff _ _).mpr (.inl ⟨hinf, rfl⟩))
    · split at h
      · rename_i his
        cases h
        exact .of_unsignedDecimal ((unsignedDecimal_iff _ _).mpr (.inr ⟨his, rfl⟩))
      · split at h
        · rename_i his
          cases h
          exact .of_nonDecimal his
        · cases h

def isVisible (c : UInt16) : Bool := 0x21 ≤ c && c ≤ 0x7E

theorem isWhiteSpace_of_isVisible {c : UInt16} (h : isVisible c = true) :
    isWhiteSpace c = false := by
  by_contra hws
  simp only [isVisible, isWhiteSpace, Bool.not_eq_false, Bool.or_eq_true, Bool.and_eq_true,
    decide_eq_true_eq, List.mem_cons, List.not_mem_nil, or_false, ← UInt16.toNat_inj,
    UInt16.le_iff_toNat_le, UInt16.reduceToNat] at h hws
  omega

theorem isVisible_of_isHexDigit {c : UInt16} (h : isHexDigit c = true) : isVisible c = true := by
  simp only [isHexDigit, isDigit, isVisible, unit, Bool.or_eq_true, Bool.and_eq_true,
    decide_eq_true_eq, Char.reduceToNat, UInt16.reduceOfNat, UInt16.le_iff_toNat_le,
    UInt16.reduceToNat] at h ⊢
  omega

theorem isVisible_of_isDigits {digit : UInt16 → Bool} {s : JsString}
    (hdigit : ∀ c, digit c = true → isHexDigit c = true) (h : s.all digit = true) :
    s.all isVisible = true := by
  apply List.all_eq_true.mpr
  intro c hc
  exact isVisible_of_isHexDigit (hdigit c (List.all_eq_true.mp h c hc))

theorem isHexDigit_of_isDigit (c : UInt16) (h : isDigit c = true) : isHexDigit c = true := by
  simp [isHexDigit, h]

theorem isHexDigit_of_isOctalDigit (c : UInt16) (h : isOctalDigit c = true) :
    isHexDigit c = true := by
  apply isHexDigit_of_isDigit
  simp only [isOctalDigit, isDigit, Bool.and_eq_true, decide_eq_true_eq] at h ⊢
  have hle : unit '7' ≤ unit '9' := by decide
  exact ⟨h.1, UInt16.le_trans h.2 hle⟩

theorem isHexDigit_of_isBinaryDigit (c : UInt16) (h : isBinaryDigit c = true) :
    isHexDigit c = true := by
  simp only [isBinaryDigit, Bool.or_eq_true, beq_iff_eq] at h
  rcases h with rfl | rfl <;> decide

theorem isVisible_digits {s : JsString} (h : isDigits isDigit s = true) :
    s.all isVisible = true :=
  isVisible_of_isDigits isHexDigit_of_isDigit (isDigits_eq_true.mp h).2

theorem Exponent.all_isVisible {s : JsString} {e : Int} (h : Exponent s e) :
    s.all isVisible = true := by
  cases h with
  | absent => rfl
  | plain hc hds =>
    have hds := isVisible_digits hds
    rcases hc with rfl | rfl <;> exact hds
  | plus hc hds =>
    have hds := isVisible_digits hds
    rcases hc with rfl | rfl <;> exact hds
  | minus hc hds =>
    have hds := isVisible_digits hds
    rcases hc with rfl | rfl <;> exact hds

theorem UnsignedDecimal.all_isVisible {s : JsString} {m : Magnitude} (h : UnsignedDecimal s m) :
    s.all isVisible = true := by
  have hdot : isVisible (unit '.') = true := by decide
  cases h with
  | infinity => decide
  | point hds hfs hex =>
    have hfs := isVisible_of_isDigits isHexDigit_of_isDigit hfs
    simp only [List.all_append, List.all_cons, isVisible_digits hds, hdot, hfs, hex.all_isVisible,
      Bool.and_self]
  | fraction hfs hex =>
    simp only [List.all_append, List.all_cons, isVisible_digits hfs, hdot, hex.all_isVisible,
      Bool.and_self]
  | whole hds hex =>
    simp only [List.all_append, isVisible_digits hds, hex.all_isVisible, Bool.and_self]

theorem NumericLiteral.all_isVisible {s : JsString} {negative : Bool} {m : Magnitude}
    (h : NumericLiteral s negative m) : s.all isVisible = true := by
  cases h with
  | unsigned h => exact h.all_isVisible
  | plus h => exact h.all_isVisible
  | minus h => exact h.all_isVisible
  | hex hx hds =>
    have hds := isVisible_of_isDigits (fun _ => id) (isDigits_eq_true.mp hds).2
    rcases hx with rfl | rfl <;> exact hds
  | octal hx hds =>
    have hds := isVisible_of_isDigits isHexDigit_of_isOctalDigit (isDigits_eq_true.mp hds).2
    rcases hx with rfl | rfl <;> exact hds
  | binary hx hds =>
    have hds := isVisible_of_isDigits isHexDigit_of_isBinaryDigit (isDigits_eq_true.mp hds).2
    rcases hx with rfl | rfl <;> exact hds

theorem exists_trim (s : JsString) : ∃ before after : JsString,
    before.all isWhiteSpace = true ∧ after.all isWhiteSpace = true ∧
      s = before ++ trim s ++ after := by
  refine ⟨s.takeWhile isWhiteSpace, (s.dropWhile isWhiteSpace).rtakeWhile isWhiteSpace,
    List.all_takeWhile, ?_, ?_⟩
  · apply List.all_eq_true.mpr
    intro c hc
    exact List.mem_rtakeWhile_imp hc
  · rw [trim, List.append_assoc, List.rdropWhile_append_rtakeWhile,
      List.takeWhile_append_dropWhile]

theorem trim_eq_nil_iff (s : JsString) : trim s = [] ↔ s.all isWhiteSpace = true := by
  constructor
  · intro h
    obtain ⟨before, after, hbefore, hafter, hs⟩ := exists_trim s
    rw [hs, h, List.append_nil, List.all_append, hbefore, hafter, Bool.and_self]
  · intro h
    rw [trim, List.dropWhile_eq_nil_iff.mpr (List.all_eq_true.mp h), List.rdropWhile_nil]

theorem trim_surround {before s after : JsString} (hbefore : before.all isWhiteSpace = true)
    (hs : s.all isVisible = true) (hafter : after.all isWhiteSpace = true) :
    trim (before ++ s ++ after) = s := by
  rw [List.all_eq_true] at hbefore hs
  have hnot : ∀ c ∈ s, isWhiteSpace c = false := fun c hc => isWhiteSpace_of_isVisible (hs c hc)
  cases s with
  | nil =>
    apply (trim_eq_nil_iff _).mpr
    simp [List.all_eq_true.mpr hbefore, hafter]
  | cons c t =>
    have hfront : (before ++ (c :: t) ++ after).dropWhile isWhiteSpace = c :: t ++ after := by
      rw [List.append_assoc, List.dropWhile_append_of_pos hbefore]
      simp [hnot c (by simp)]
    have hback : (c :: t ++ after).rdropWhile isWhiteSpace = (c :: t).rdropWhile isWhiteSpace := by
      have hrev : ∀ c ∈ after.reverse, isWhiteSpace c = true := by simpa using hafter
      rw [List.rdropWhile, List.reverse_append, List.dropWhile_append_of_pos hrev, List.rdropWhile]
    rw [trim, hfront, hback, List.rdropWhile_eq_self_iff]
    intro hne
    rw [hnot _ (List.getLast_mem hne)]
    simp

theorem stringToNumber_of_literal {s : JsString} {negative : Bool} {m : Magnitude}
    (h : NumericLiteral (trim s) negative m) : stringToNumber s = m.toNumber negative := by
  have hsome := (numericLiteral_iff _ _ _).mp h
  have hne : (trim s).isEmpty = false := by
    cases htrim : trim s with
    | nil => rw [htrim] at hsome; cases hsome
    | cons c t => rfl
  simp [stringToNumber, hne, hsome]

theorem stringNumericLiteral_iff (s : JsString) (x : Number) :
    StringNumericLiteral s x ↔ stringToNumber s = x ∧ x ≠ .nan := by
  constructor
  · intro h
    cases h with
    | blank h => exact ⟨by simp [stringToNumber, (trim_eq_nil_iff s).mpr h], by simp⟩
    | literal hbefore h hafter =>
      refine ⟨stringToNumber_of_literal ?_, Magnitude.toNumber_ne_nan _ _⟩
      rwa [trim_surround hbefore h.all_isVisible hafter]
  · rintro ⟨rfl, hnan⟩
    obtain ⟨before, after, hbefore, hafter, hs⟩ := exists_trim s
    by_cases hnil : trim s = []
    · simp only [stringToNumber, hnil, List.isEmpty_nil, if_true]
      exact .blank ((trim_eq_nil_iff s).mp hnil)
    · simp only [stringToNumber, List.isEmpty_iff, hnil, if_false] at hnan ⊢
      cases hsome : numericLiteral? (trim s) with
      | none => simp [hsome] at hnan
      | some r =>
        obtain ⟨negative, m⟩ := r
        have := StringNumericLiteral.literal hbefore ((numericLiteral_iff _ _ _).mpr hsome) hafter
        rwa [← hs] at this

end QuizApp.Js
