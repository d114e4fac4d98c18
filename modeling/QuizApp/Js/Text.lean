import Mathlib.Data.List.DropRight
import Mathlib.Data.List.Nodup

/-! The part of JavaScript's strings and objects that the two screens use.
`isWhiteSpace` holds of the code units that `trim` removes and `StringToNumber`
skips, `numeral n` is `n.toString()`, and a property that an object does not have
is `none`, for `undefined`. -/

universe u

namespace QuizApp.Js

/-- A JavaScript string is the sequence of its UTF-16 code units, lone surrogates included. -/
abbrev JsString := List UInt16

def encode (c : Char) : JsString :=
  if c.toNat < 0x10000 then [UInt16.ofNat c.toNat]
  else [UInt16.ofNat (0xD800 + (c.toNat - 0x10000) / 0x400),
    UInt16.ofNat (0xDC00 + (c.toNat - 0x10000) % 0x400)]

def JsString.lit (s : String) : JsString := s.toList.flatMap encode

def isWhiteSpace (c : UInt16) : Bool :=
  c ∈ ([0x09, 0x0A, 0x0B, 0x0C, 0x0D, 0x20, 0xA0, 0x1680, 0x2028, 0x2029, 0x202F, 0x205F,
    0x3000, 0xFEFF] : List UInt16) || (0x2000 ≤ c && c ≤ 0x200A)

def trim (s : JsString) : JsString := (s.dropWhile isWhiteSpace).rdropWhile isWhiteSpace

def numeral (n : Nat) : JsString := (Nat.toDigits 10 n).flatMap encode

theorem decode_encode {c : Char} (h : c.isDigit = true) :
    (encode c).map (fun u => Char.ofNat u.toNat) = [c] := by
  have hle : c.toNat ≤ 57 := (Char.isDigit_iff_toNat.mp h).2
  have hencode : encode c = [UInt16.ofNat c.toNat] := if_pos (by omega)
  rw [hencode, List.map_singleton, UInt16.toNat_ofNat', Nat.mod_eq_of_lt (by omega),
    Char.ofNat_toNat]

theorem numeral_injective : Function.Injective numeral := by
  apply Function.LeftInverse.injective
    (g := fun s => Nat.ofDigitChars 10 (s.map fun u => Char.ofNat u.toNat) 0)
  intro n
  have hdecode : (numeral n).map (fun u => Char.ofNat u.toNat) = Nat.toDigits 10 n := by
    rw [numeral, List.map_flatMap, List.flatMap_congr fun c hc =>
      decode_encode (Nat.isDigit_of_mem_toDigits (by decide) (by decide) hc)]
    exact List.flatMap_singleton' _
  simp only [hdecode]
  exact Nat.ofDigitChars_toDigits (by decide) (by decide)

def propertyKey : Int → JsString
  | .ofNat n => numeral n
  | .negSucc n => JsString.lit "-" ++ numeral (n + 1)

structure JsObject (V : Type u) where
  entries : List (JsString × V)
  nodup : (entries.map Prod.fst).Nodup

namespace JsObject

variable {V : Type u}

def keys (o : JsObject V) : List JsString := o.entries.map Prod.fst

def get? (o : JsObject V) (key : JsString) : Option V := o.entries.lookup key

def at? (o : JsObject V) (n : Int) : Option V := o.get? (propertyKey n)

theorem get?_isSome_of_mem_keys {o : JsObject V} {key : JsString} (h : key ∈ o.keys) :
    (o.get? key).isSome := by
  obtain ⟨entries, hnodup⟩ := o
  simp only [keys, get?] at h ⊢
  clear hnodup
  induction entries with
  | nil => simp at h
  | cons e es ih =>
    obtain ⟨k, v⟩ := e
    by_cases hk : key = k
    · simp [hk]
    · have hbeq : (key == k) = false := by simpa using hk
      simp only [List.map_cons, List.mem_cons, hk, false_or] at h
      simpa [List.lookup_cons, hbeq] using ih h

end JsObject

def numberedKeys (n : Nat) : List JsString := (List.range' 1 n).map numeral

theorem JsObject.at?_isSome_of_numbered {V : Type u} {o : JsObject V} {n i : Nat}
    (hkeys : o.keys.Perm (numberedKeys n)) (hpos : 1 ≤ i) (hle : i ≤ n) :
    (o.at? i).isSome := by
  apply JsObject.get?_isSome_of_mem_keys
  apply hkeys.mem_iff.mpr
  apply List.mem_map.mpr
  refine ⟨i, ?_, rfl⟩
  rw [List.mem_range'_1]
  omega

inductive JsError
  | typeError
  | referenceError (identifier : String)
  deriving DecidableEq

inductive Reply (α : Type u)
  | fulfilled (value : α)
  | rejected
  deriving DecidableEq

end QuizApp.Js
