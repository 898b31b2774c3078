/- Texture/Proofs/Json/Lexeme
   digest: Spelled numbers: which characters they consist of, and that whole numbers are read back. -/

import Mathlib.Data.List.TakeWhile
import Texture.Json.Printer
import Texture.Json.Token
import Texture.Proofs.Json.Value

set_option autoImplicit false
set_option relaxedAutoImplicit false

namespace Texture.Json

namespace Lexeme

private theorem isNumberPart_of_isDigit {c : Char} (digit : c.isDigit = true) :
    Token.isNumberPart c = true := by
  simp [Token.isNumberPart, digit]

private theorem digits?_eq_some {cs ds rest : List Char} (found : digits? cs = some (ds, rest)) :
    cs = ds ++ rest ∧ ds ≠ [] ∧ ∀ c ∈ ds, c.isDigit = true := by
  unfold digits? at found
  split at found
  · cases found
  · rename_i some_digits
    cases found
    refine ⟨(List.takeWhile_append_dropWhile).symm, some_digits, fun c held => ?_⟩
    exact List.mem_takeWhile_imp held

private theorem digits?_digits {ds : List Char} (some_digits : ds ≠ [])
    (digits : ∀ c ∈ ds, c.isDigit = true) : digits? ds = some (ds, []) := by
  have all : ds.takeWhile Char.isDigit = ds := List.takeWhile_eq_self_iff.2 digits
  have none : ds.dropWhile Char.isDigit = [] := List.dropWhile_eq_nil_iff.2 digits
  unfold digits?
  rw [all, none]
  split
  · contradiction
  · rfl

private theorem whole?_eq_some {cs ds rest : List Char} (found : whole? cs = some (ds, rest)) :
    cs = ds ++ rest ∧ ds ≠ [] ∧ ∀ c ∈ ds, c.isDigit = true := by
  unfold whole? at found
  split at found
  · cases found
  · exact digits?_eq_some found

private theorem fraction?_eq_some {cs rest : List Char} {fraction : Option (List Char)}
    (found : fraction? cs = some (fraction, rest)) :
    ∃ front, cs = front ++ rest ∧ ∀ c ∈ front, Token.isNumberPart c = true := by
  unfold fraction? at found
  split at found
  · obtain ⟨⟨ds, behind⟩, read, same⟩ := Option.map_eq_some_iff.1 found
    cases same
    obtain ⟨rfl, -, digits⟩ := digits?_eq_some read
    refine ⟨'.' :: ds, rfl, fun c held => ?_⟩
    rcases List.mem_cons.1 held with rfl | held
    · rfl
    · exact isNumberPart_of_isDigit (digits c held)
  · cases found
    exact ⟨[], rfl, nofun⟩

private theorem splitSign_parts (cs : List Char) :
    ∃ sign, cs = sign ++ (Number.Reader.splitSign cs).2
      ∧ ∀ c ∈ sign, Token.isNumberPart c = true := by
  unfold Number.Reader.splitSign
  split
  · exact ⟨['-'], rfl, List.forall_mem_singleton.2 rfl⟩
  · exact ⟨['+'], rfl, List.forall_mem_singleton.2 rfl⟩
  · exact ⟨[], rfl, nofun⟩

private theorem exponent?_eq_some {cs : List Char} {exponent : Option (Bool × List Char)}
    (found : exponent? cs = some exponent) : ∀ c ∈ cs, Token.isNumberPart c = true := by
  cases cs with
  | nil => exact nofun
  | cons e cs =>
    simp only [exponent?] at found
    split_ifs at found with letter
    have lettered : Token.isNumberPart e = true := by rcases letter with rfl | rfl <;> rfl
    obtain ⟨sign, same, part⟩ := splitSign_parts cs
    split at found
    · rename_i ds read
      obtain ⟨whole, -, digits⟩ := digits?_eq_some read
      rw [List.append_nil] at whole
      rw [whole] at same
      intro c held
      rw [same] at held
      rcases List.mem_cons.1 held with rfl | held
      · exact lettered
      · rcases List.mem_append.1 held with held | held
        · exact part c held
        · exact isNumberPart_of_isDigit (digits c held)
    · cases found

private theorem unsigned_eq_some {negative : Bool} {cs : List Char} {l : Lexeme}
    (found : (do
      let (whole, cs) ← whole? cs
      let (fraction, cs) ← fraction? cs
      let exponent ← exponent? cs
      some (Lexeme.mk negative whole fraction exponent)) = some l) :
    ∃ c rest, cs = c :: rest ∧ c.isDigit = true ∧ ∀ d ∈ rest, Token.isNumberPart d = true := by
  obtain ⟨⟨ds, behind⟩, whole, found⟩ := Option.bind_eq_some_iff.1 found
  obtain ⟨⟨fraction, last⟩, broken, found⟩ := Option.bind_eq_some_iff.1 found
  obtain ⟨exponent, raised, -⟩ := Option.bind_eq_some_iff.1 found
  obtain ⟨rfl, some_digits, digits⟩ := whole?_eq_some whole
  obtain ⟨front, rfl, fronted⟩ := fraction?_eq_some broken
  have ended := exponent?_eq_some raised
  obtain ⟨c, ds, rfl⟩ := List.exists_cons_of_ne_nil some_digits
  refine ⟨c, ds ++ (front ++ last), rfl, digits c (by simp), fun d held => ?_⟩
  simp only [List.mem_append] at held
  rcases held with held | held | held
  · exact isNumberPart_of_isDigit (digits d (by simp [held]))
  · exact fronted d held
  · exact ended d held

theorem ofChars?_eq_some {cs : List Char} {l : Lexeme} (found : ofChars? cs = some l) :
    ∃ c rest, cs = c :: rest ∧ (c = '-' ∨ c.isDigit = true)
      ∧ ∀ d ∈ rest, Token.isNumberPart d = true := by
  unfold ofChars? at found
  split at found
  rename_i negative cs' sign
  obtain ⟨c, rest, same, digit, parts⟩ := unsigned_eq_some found
  split at sign <;> cases sign
  · refine ⟨'-', c :: rest, by rw [← same], .inl rfl, fun d held => ?_⟩
    rcases List.mem_cons.1 held with rfl | held
    · exact isNumberPart_of_isDigit digit
    · exact parts d held
  · exact ⟨c, rest, same, .inr digit, parts⟩

private theorem ofChars?_digits {ds : List Char} (some_digits : ds ≠ [])
    (digits : ∀ c ∈ ds, c.isDigit = true) (lead : ds.head? = some '0' → ds = ['0'])
    (negative : Bool) :
    ofChars? (if negative then '-' :: ds else ds) = some ⟨negative, ds, none, none⟩ := by
  have whole : whole? ds = some (ds, []) := by
    unfold whole?
    rw [digits?_digits some_digits digits]
    split
    · rename_i found
      cases found
      simpa using lead rfl
    · rfl
  have unsigned : ∀ cs, ds ≠ '-' :: cs := by
    rintro cs rfl
    exact absurd (digits '-' (by simp)) (by decide)
  unfold ofChars?
  cases negative with
  | true => simp [whole, fraction?, exponent?]
  | false =>
    split
    rename_i sign
    simp only [Bool.false_eq_true, if_false] at sign
    cases sign
    simp [whole, fraction?, exponent?]

theorem numeral?_inRange {l : Lexeme} {n : Numeral} (read : l.numeral? = some n) : n.InRange := by
  unfold numeral? at read
  simp only at read
  split at read
  · rename_i whole
    simp only [Bool.and_eq_true, decide_eq_true_eq] at whole
    split at read
    · cases read
      exact whole.2
    · split at read
      · rename_i small
        cases read
        exact small
      · cases read
        trivial
  · obtain ⟨x, -, rfl⟩ := Option.map_eq_some_iff.1 read
    trivial

end Lexeme

private theorem head?_toDigits_ne {n : Nat} (positive : 0 < n) :
    (Nat.toDigits 10 n).head? ≠ some '0' := by
  induction n using Nat.strong_induction_on with
  | h n ih =>
    rw [Nat.toDigits_eq_if (by decide)]
    split_ifs with small
    · simp
      omega
    · have shorter := ih (n / 10) (by omega) (by omega)
      rw [List.head?_append_of_ne_nil _ Nat.toDigits_ne_nil]
      exact shorter

private theorem toDigits_lead {n : Nat} (zero : (Nat.toDigits 10 n).head? = some '0') :
    Nat.toDigits 10 n = ['0'] := by
  rcases Nat.eq_zero_or_pos n with rfl | positive
  · rfl
  · exact absurd zero (head?_toDigits_ne positive)

private theorem ofChars?_toDigits (n : Nat) (negative : Bool) :
    Lexeme.ofChars? (if negative then '-' :: Nat.toDigits 10 n else Nat.toDigits 10 n)
      = some ⟨negative, Nat.toDigits 10 n, none, none⟩ :=
  Lexeme.ofChars?_digits Nat.toDigits_ne_nil
    (fun _ held => Nat.isDigit_of_mem_toDigits (by decide) (by decide) held) toDigits_lead negative

private theorem digitsValue_toDigits (n : Nat) :
    Number.Reader.digitsValue (Nat.toDigits 10 n) = n :=
  Nat.ofDigitChars_ten_toDigits

namespace Numeral

def ReadsBack (n : Numeral) : Prop :=
  (Lexeme.ofChars? (writeNumeral n).toList).bind Lexeme.numeral? = some n

/-- If it is a float, its spelling is read as this float. -/
def RealReadsBack : Numeral → Prop
  | natural _ | negative _ => True
  | real x => (real x).ReadsBack

theorem readsBack_natural {n : Nat} (small : n ≤ Lexeme.limit) : ReadsBack (natural n) := by
  have spelled : Lexeme.ofChars? (writeNumeral (natural n)).toList
      = some ⟨false, Nat.toDigits 10 n, none, none⟩ := by
    simpa [writeNumeral] using ofChars?_toDigits n false
  have value : Lexeme.numeral? ⟨false, Nat.toDigits 10 n, none, none⟩ = some (natural n) := by
    simp [Lexeme.numeral?, digitsValue_toDigits, small]
  rw [ReadsBack, spelled]
  exact value

theorem readsBack_negative {n : Nat} (positive : 0 < n) (small : n ≤ 9223372036854775808) :
    ReadsBack (negative n) := by
  have spelled : Lexeme.ofChars? (writeNumeral (negative n)).toList
      = some ⟨true, Nat.toDigits 10 n, none, none⟩ := by
    simpa [writeNumeral] using ofChars?_toDigits n true
  have fits : n ≤ Lexeme.limit := small.trans (by decide)
  have value : Lexeme.numeral? ⟨true, Nat.toDigits 10 n, none, none⟩ = some (negative n) := by
    simp [Lexeme.numeral?, digitsValue_toDigits, positive, small, fits]
  rw [ReadsBack, spelled]
  exact value

end Numeral

end Texture.Json
