import Mathlib.Data.List.Basic
import Mathlib.Tactic

/-! Python strings: sequences of code points, lone surrogates among them, and their UTF-8 encoding,
which refuses a surrogate. -/

abbrev CodePoint := Fin 0x110000

instance neZeroCodes : NeZero 0x110000 := ⟨by decide⟩

abbrev PyStr := List CodePoint

namespace PyStr

instance lawfulBEq : @LawfulBEq PyStr (@List.instBEq _ instBEqOfDecidableEq) := inferInstance

def point (c : Char) : CodePoint :=
  ⟨c.toNat, c.valid.elim (fun h => h.trans (by decide)) fun h => h.2⟩

def lit (text : String) : PyStr := text.toList.map point

theorem point_injective : Function.Injective point := by
  intro c d h
  have hval : (point c).val = (point d).val := by rw [h]
  exact Char.ext (UInt32.toNat_inj.mp hval)

@[simp] theorem lit_inj {a b : String} : lit a = lit b ↔ a = b := by
  constructor
  · intro h
    exact String.toList_injective (List.map_injective_iff.mpr point_injective h)
  · rintro rfl
    rfl

@[simp] theorem lit_beq (a b : String) : (lit a == lit b) = (a == b) := by
  rw [Bool.eq_iff_iff, beq_iff_eq, beq_iff_eq]
  exact lit_inj

/-- `str(n)` of a natural number. -/
def natText (n : ℕ) : PyStr := (Nat.toDigits 10 n).map point

theorem natText_chars {n : ℕ} {c : CodePoint} (h : c ∈ natText n) :
    c ∈ lit "0123456789" := by
  obtain ⟨d, hd, rfl⟩ := List.mem_map.mp h
  have hdigit := Nat.isDigit_of_mem_toDigits (by decide) (by decide) hd
  have hbounds := Bool.and_eq_true_iff.mp hdigit
  have hlow : 48 ≤ d.toNat := UInt32.le_iff_toNat_le.mp (of_decide_eq_true hbounds.1)
  have hhigh : d.toNat ≤ 57 := UInt32.le_iff_toNat_le.mp (of_decide_eq_true hbounds.2)
  have hmem (m : ℕ) (hm : m < 0x110000) (hlow : 48 ≤ m) (hhigh : m ≤ 57) :
      (⟨m, hm⟩ : CodePoint) ∈ lit "0123456789" := by
    interval_cases m <;> exact of_decide_eq_true rfl
  exact hmem d.toNat (point d).isLt hlow hhigh

theorem natText_injective : Function.Injective natText := by
  intro a b h
  have hdigits : Nat.toDigits 10 a = Nat.toDigits 10 b :=
    List.map_injective_iff.mpr point_injective h
  have hread := congrArg (fun digits => Nat.ofDigitChars 10 digits 0) hdigits
  simpa using hread

theorem natText_ne_nil (n : ℕ) : natText n ≠ [] := by
  intro h
  exact Nat.toDigits_ne_nil (List.map_eq_nil_iff.mp h)

theorem notMem_natText {c : CodePoint} (h : c ∉ lit "0123456789") (n : ℕ) : c ∉ natText n :=
  fun hc => h (natText_chars hc)

def toChar? (c : CodePoint) : Option Char :=
  if h : c.val.isValidChar then some (Char.ofNatAux c.val h) else none

/-- `str.encode("utf-8")`; `none` is its UnicodeEncodeError. -/
def utf8? (text : PyStr) : Option ByteArray :=
  (text.mapM toChar?).map fun chars => (String.ofList chars).toByteArray

/-- `a <= b` on strings: by code points, a prefix first. -/
def le : PyStr → PyStr → Bool
  | [], _ => true
  | _ :: _, [] => false
  | c :: s, d :: t => decide (c < d) || (decide (c = d) && le s t)

theorem le_total : ∀ s t : PyStr, le s t = true ∨ le t s = true
  | [], _ => .inl rfl
  | _ :: _, [] => .inr rfl
  | c :: s, d :: t => by
    simp only [le, Bool.or_eq_true, Bool.and_eq_true, decide_eq_true_eq]
    rcases lt_trichotomy c d with h | rfl | h
    · exact .inl (.inl h)
    · rcases le_total s t with h | h
      · exact .inl (.inr ⟨rfl, h⟩)
      · exact .inr (.inr ⟨rfl, h⟩)
    · exact .inr (.inl h)

theorem le_antisymm : ∀ {s t : PyStr}, le s t = true → le t s = true → s = t
  | [], [], _, _ => rfl
  | [], _ :: _, _, h => nomatch h
  | _ :: _, [], h, _ => nomatch h
  | c :: s, d :: t, h, h' => by
    simp only [le, Bool.or_eq_true, Bool.and_eq_true, decide_eq_true_eq] at h h'
    rcases h with h | ⟨rfl, h⟩
    · rcases h' with h' | ⟨rfl, -⟩
      · exact absurd h' (lt_asymm h)
      · exact absurd h (lt_irrefl _)
    · rcases h' with h' | ⟨-, h'⟩
      · exact absurd h' (lt_irrefl _)
      · rw [le_antisymm h h']

theorem le_trans : ∀ {s t u : PyStr}, le s t = true → le t u = true → le s u = true
  | [], _, _, _, _ => rfl
  | _ :: _, [], _, h, _ => nomatch h
  | _ :: _, _ :: _, [], _, h => nomatch h
  | c :: s, d :: t, e :: u, h, h' => by
    simp only [le, Bool.or_eq_true, Bool.and_eq_true, decide_eq_true_eq] at h h' ⊢
    rcases h with h | ⟨rfl, h⟩
    · rcases h' with h' | ⟨rfl, -⟩
      · exact .inl (h.trans h')
      · exact .inl h
    · rcases h' with h' | ⟨rfl, h'⟩
      · exact .inl h'
      · exact .inr ⟨rfl, le_trans h h'⟩

theorem toNat_of_toChar? {c : CodePoint} {d : Char} (h : toChar? c = some d) : d.toNat = c.val := by
  by_cases hvalid : c.val.isValidChar
  · rw [toChar?, dif_pos hvalid] at h
    obtain rfl := Option.some.inj h
    rfl
  · rw [toChar?, dif_neg hvalid] at h
    cases h

theorem toChar?_injective {c d : CodePoint} {e : Char} (hc : toChar? c = some e)
    (hd : toChar? d = some e) : c = d :=
  Fin.ext ((toNat_of_toChar? hc).symm.trans (toNat_of_toChar? hd))

theorem mapM_toChar?_injective {s t : PyStr} {chars : List Char} (hs : s.mapM toChar? = some chars)
    (ht : t.mapM toChar? = some chars) : s = t := by
  induction s generalizing t chars with
  | nil =>
    obtain rfl := Option.some.inj hs
    cases t with
    | nil => rfl
    | cons d t =>
      simp only [List.mapM_cons, Option.bind_eq_bind, Option.bind_eq_some_iff, Option.pure_def,
        Option.some.injEq] at ht
      obtain ⟨_, _, _, _, h⟩ := ht
      cases h
  | cons c s ih =>
    simp only [List.mapM_cons, Option.bind_eq_bind, Option.bind_eq_some_iff, Option.pure_def,
      Option.some.injEq] at hs
    obtain ⟨e, he, rest, hrest, rfl⟩ := hs
    cases t with
    | nil => cases ht
    | cons d t =>
      simp only [List.mapM_cons, Option.bind_eq_bind, Option.bind_eq_some_iff, Option.pure_def,
        Option.some.injEq, List.cons.injEq] at ht
      obtain ⟨e', he', rest', hrest', rfl, rfl⟩ := ht
      rw [toChar?_injective he he', ih hrest hrest']

theorem utf8?_injective {s t : PyStr} {bytes : ByteArray} (hs : utf8? s = some bytes)
    (ht : utf8? t = some bytes) : s = t := by
  obtain ⟨a, ha, hab⟩ := Option.map_eq_some_iff.mp hs
  obtain ⟨b, hb, hbb⟩ := Option.map_eq_some_iff.mp ht
  have hchars : a = b :=
    String.ofList_injective (String.toByteArray_inj.mp (hab.trans hbb.symm))
  subst hchars
  exact mapM_toChar?_injective ha hb

end PyStr
