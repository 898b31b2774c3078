/- Texture/Proofs/Minted
   digest: Ids that are given out tell their stem and their number, and no silhouette has one. -/

import Mathlib.Tactic.Common
import Texture.Operator.Silhouette

set_option autoImplicit false
set_option relaxedAutoImplicit false

namespace Texture

/-- The id that is given out with a stem as the one of a number. -/
def mintedId (stem : String) (number : Nat) : String := stem ++ "_" ++ toString number

private theorem underscore_split_unique {front front' back back' : List Char}
    (plain : '_' ∉ back) (plain' : '_' ∉ back')
    (same : front ++ '_' :: back = front' ++ '_' :: back') : front = front' ∧ back = back' := by
  rcases List.append_eq_append_iff.mp same with ⟨rest, hfront, hback⟩ | ⟨rest, hfront, hback⟩
  · cases rest with
    | nil => simp_all
    | cons c rest =>
      obtain ⟨-, tail⟩ := List.cons.inj hback
      exact absurd (by rw [tail]; simp) plain
  · cases rest with
    | nil => simp_all
    | cons c rest =>
      obtain ⟨-, tail⟩ := List.cons.inj hback
      exact absurd (by rw [tail]; simp) plain'

private theorem toList_mintedId (stem : String) (number : Nat) :
    (mintedId stem number).toList = stem.toList ++ '_' :: Nat.toDigits 10 number := by
  simp [mintedId, String.toList_append, Nat.toList_repr]

theorem mintedId_inj {stem stem' : String} {number number' : Nat} :
    mintedId stem number = mintedId stem' number' ↔ stem = stem' ∧ number = number' := by
  constructor
  · intro same
    have lists := congrArg String.toList same
    rw [toList_mintedId, toList_mintedId] at lists
    obtain ⟨stems, digits⟩ := underscore_split_unique Nat.underscore_not_in_toDigits
      Nat.underscore_not_in_toDigits lists
    have numbers := congrArg (fun ds => Nat.ofDigitChars 10 ds 0) digits
    simp only [Nat.ofDigitChars_ten_toDigits] at numbers
    exact ⟨String.toList_injective stems, numbers⟩
  · rintro ⟨rfl, rfl⟩
    rfl

namespace Silhouette

private theorem filterId_split (s : Silhouette) :
    ∃ color, s.filterId.toList = "silhouette".toList ++ '_' :: color ∧ '_' ∉ color ∧
      ∃ c ∈ color, c.isDigit = false := by
  cases s with
  | white => exact ⟨"white".toList, by decide, by decide, 'w', by decide, by decide⟩
  | black => exact ⟨"black".toList, by decide, by decide, 'b', by decide, by decide⟩

theorem filterId_ne_mintedId (s : Silhouette) (stem : String) (number : Nat) :
    s.filterId ≠ mintedId stem number := by
  intro same
  obtain ⟨color, split, plain, c, mem, letter⟩ := filterId_split s
  have lists := congrArg String.toList same
  rw [split, toList_mintedId] at lists
  obtain ⟨-, digits⟩ := underscore_split_unique plain Nat.underscore_not_in_toDigits lists
  rw [digits] at mem
  have digit := Nat.isDigit_of_mem_toDigits (by decide) (by decide) mem
  rw [letter] at digit
  exact Bool.false_ne_true digit

theorem filterId_inj {s t : Silhouette} : s.filterId = t.filterId ↔ s = t := by
  cases s <;> cases t <;> decide

end Silhouette

open Classical in
/-- Gives new numbers to ids that were given out, and keeps their stems and all other ids. -/
noncomputable def renumber (θ : Nat → Nat) (id : String) : String :=
  if h : ∃ stem number, id = mintedId stem number then
    mintedId h.choose (θ h.choose_spec.choose)
  else id

theorem renumber_mintedId (θ : Nat → Nat) (stem : String) (number : Nat) :
    renumber θ (mintedId stem number) = mintedId stem (θ number) := by
  have h : ∃ stem' number', mintedId stem number = mintedId stem' number' :=
    ⟨stem, number, rfl⟩
  obtain ⟨stems, numbers⟩ := mintedId_inj.mp h.choose_spec.choose_spec
  rw [renumber, dif_pos h]
  exact congrArg₂ mintedId stems.symm (congrArg θ numbers.symm)

theorem renumber_filterId (θ : Nat → Nat) (s : Silhouette) :
    renumber θ s.filterId = s.filterId := by
  rw [renumber, dif_neg]
  rintro ⟨stem, number, same⟩
  exact s.filterId_ne_mintedId stem number same

end Texture
