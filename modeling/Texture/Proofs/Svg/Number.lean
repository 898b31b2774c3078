/- Texture/Proofs/Svg/Number
   digest: Numbers with at most four places are single words; they are decimals unless they overflow
   when they are scaled to be rounded, and no zero among them has a sign. -/

import Texture.Proofs.Number.Decimal
import Texture.Proofs.Number.Whole
import Texture.Svg.Document

set_option autoImplicit false
set_option relaxedAutoImplicit false

namespace Texture.Svg

open Number (Beyond FloatStyle IsDecimal Within floatText)
open Number.Binary (isFinite roundHalfAway)

/-- A blank, a comma, a bracket, or a letter of an outline. -/
def isBreak (c : Char) : Bool := [' ', ',', '(', ')', 'M', 'L', 'C', 'Z'].contains c

/-- The words of an attribute of numbers, apart from the name of a map. -/
def words (cs : List Char) : List (List Char) :=
  (cs.splitOnP isBreak).filter fun w => !w.isEmpty && w != "matrix".toList

section

variable {c : Char} {w : List Char} {x : Float}

theorem words_append (isolated : isBreak c = true) (xs ys : List Char) :
    words (xs ++ c :: ys) = words xs ++ words ys := by
  rw [words, List.splitOnP_append_cons xs ys isolated, List.filter_append, words, words]

theorem words_cons (isolated : isBreak c = true) (cs : List Char) : words (c :: cs) = words cs :=
  words_append isolated [] cs

theorem words_intercalate (texts : List String) :
    words (" ".intercalate texts).toList = texts.flatMap fun text => words text.toList := by
  induction texts with
  | nil => rfl
  | cons text texts ih =>
    cases texts with
    | nil => simp
    | cons next texts =>
      have split : (" ".intercalate (text :: next :: texts)).toList
          = text.toList ++ ' ' :: (" ".intercalate (next :: texts)).toList := by
        rw [String.intercalate_cons_cons]
        simp
      rw [List.flatMap_cons, split, words_append rfl, ih]

structure IsWord (w : List Char) : Prop where
  some : w ≠ []
  unbroken : ∀ c ∈ w, isBreak c = false ∧ c ≠ 'm'

private theorem IsWord.of_test (some : w ≠ [])
    (unbroken : (w.all fun c => !isBreak c && c != 'm') = true) : IsWord w := by
  refine ⟨some, fun c mem => ?_⟩
  have := List.all_eq_true.1 unbroken c mem
  simpa using this

theorem IsWord.words (h : IsWord w) : words w = [w] := by
  have named : (w != "matrix".toList) = true := by
    rw [bne_iff_ne]
    rintro rfl
    exact (h.unbroken 'm' (by decide)).2 rfl
  have filled : w.isEmpty = false := by simpa using h.some
  rw [Svg.words, List.splitOnP_eq_singleton fun c mem => (h.unbroken c mem).1]
  simp only [List.filter_cons, filled, named, Bool.not_false, Bool.and_self, if_true,
    List.filter_nil]

private theorem IsWord.of_isDecimal (h : IsDecimal w) : IsWord w := by
  refine ⟨h.ne_nil, ?_⟩
  intro c mem
  rcases h.chars c mem with rfl | rfl | digit
  · exact ⟨rfl, by decide⟩
  · exact ⟨rfl, by decide⟩
  · constructor
    · by_contra isolated
      have listed := List.contains_iff_mem.1 (Bool.eq_true_of_not_eq_false isolated)
      have none : ([' ', ',', '(', ')', 'M', 'L', 'C', 'Z'].any Char.isDigit) = false := rfl
      rw [List.any_eq_false] at none
      exact none c listed digit
    · rintro rfl
      cases digit

theorem isWord_floatText (x : Float) : IsWord (floatText FloatStyle.plain x).toList := by
  by_cases finite : isFinite x = true
  · exact .of_isDecimal ((Number.floatText_isDecimal x).2 finite)
  · unfold floatText
    cases read : Number.Binary.ofFloat x with
    | nan => exact .of_test (by decide) rfl
    | infinite negative => cases negative <;> exact .of_test (by decide) rfl
    | finite negative m e => exact absurd (Number.isFinite_of_read read) finite

theorem isWord_number (x : Float) : IsWord (number x).toList := by
  have zero : IsWord "0".toList := .of_test (by decide) rfl
  unfold number
  simp only
  split
  · split
    · exact zero
    · exact isWord_floatText _
  · exact zero

private theorem isFinite_rounded : isFinite (roundHalfAway x / 1e4) = isFinite x := by
  have scale : Beyond 13 1e4 := .of_test (by decide +kernel)
  cases finite : isFinite x with
  | true =>
    have rounded : Within 1024 (roundHalfAway x) := Number.within_roundHalfAway finite
    have quotient : Within 1011 (roundHalfAway x / 1e4) := rounded.div scale (by decide)
    exact quotient.finite
  | false =>
    rw [Number.roundHalfAway_of_not_finite finite]
    refine Bool.eq_false_iff.2 fun quotient => ?_
    rw [Number.isFinite_of_div scale quotient] at finite
    cases finite

/-- A float with at most four places is a decimal unless it is so large that it overflows when it is
scaled to be rounded. -/
theorem number_isDecimal (x : Float) :
    IsDecimal (number x).toList ↔ (isFinite x = true → isFinite (x * 1e4) = true) := by
  have zero : IsDecimal "0".toList :=
    .inl (.inl ⟨List.cons_ne_nil _ _, List.forall_mem_singleton.2 rfl⟩)
  have origin : isFinite 0.0 = true := by decide +kernel
  unfold number
  simp only
  split
  · rename_i finite
    rw [forall_prop_of_true finite, ← isFinite_rounded]
    split
    · rename_i same
      exact iff_of_true zero (Number.isFinite_of_beq same origin)
    · exact Number.floatText_isDecimal _
  · rename_i infinite
    exact iff_of_true zero fun finite => absurd finite infinite

theorem number_ne (x : Float) : number x ≠ "-0" := by
  unfold number
  simp only
  split
  · split
    · decide
    · rename_i some
      refine Number.floatText_ne fun finite zero => some ?_
      have origin : isFinite 0.0 = true := by decide +kernel
      rw [Number.beq_iff finite origin, zero, Number.exactValue_zero]
  · decide

end

theorem number_zero : number 0.0 = "0" := by decide +kernel

end Texture.Svg
