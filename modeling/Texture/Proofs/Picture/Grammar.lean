/- Texture/Proofs/Picture/Grammar
   digest: Which texts are payloads of which bytes. All other texts are refused. -/

import Mathlib.Data.List.DropRight
import Texture.Picture.Payload
import Texture.Proofs.Text.Canonical

set_option autoImplicit false
set_option relaxedAutoImplicit false

namespace Texture

namespace Text

/-- What is left of a text without the blanks around it. -/
structure Core (text core : List Char) : Prop where
  around : ∃ before after, text = before ++ core ++ after ∧
    (∀ c ∈ before, isBlank c = true) ∧ ∀ c ∈ after, isBlank c = true
  first : ∀ c ∈ core.head?, isBlank c = false
  last : ∀ c ∈ core.getLast?, isBlank c = false

private theorem dropWhile_blanks {blanks rest : List Char} (blank : ∀ c ∈ blanks, isBlank c = true)
    (first : ∀ c ∈ rest.head?, isBlank c = false) : (blanks ++ rest).dropWhile isBlank = rest := by
  rw [List.dropWhile_append_of_pos blank]
  cases rest with
  | nil => rfl
  | cons c rest => rw [List.dropWhile_cons_of_neg (by simp [first c rfl])]

variable {text core : List Char}

private theorem Core.eq_trim (h : Core text core) : core = trim text := by
  obtain ⟨⟨before, after, rfl, blank, blank'⟩, first, last⟩ := h
  have reversed : ∀ c ∈ after.reverse, isBlank c = true := fun c mem =>
    blank' c (List.mem_reverse.mp mem)
  rw [trim]
  cases core with
  | nil =>
    have all : (before ++ [] ++ after).dropWhile isBlank = [] := by
      rw [List.append_nil, List.dropWhile_append_of_pos blank, List.dropWhile_eq_nil_iff]
      exact blank'
    rw [all]
    rfl
  | cons c core =>
    have front : (before ++ (c :: core) ++ after).dropWhile isBlank = c :: core ++ after := by
      rw [List.append_assoc]
      exact dropWhile_blanks blank first
    rw [front, List.reverse_append, dropWhile_blanks reversed, List.reverse_reverse]
    rwa [List.head?_reverse]

private theorem rdropWhile_blanks (text : List Char) :
    ∃ after, text = text.rdropWhile isBlank ++ after ∧ (∀ c ∈ after, isBlank c = true) ∧
      ∀ c ∈ (text.rdropWhile isBlank).getLast?, isBlank c = false := by
  refine ⟨text.rtakeWhile isBlank, List.rdropWhile_append_rtakeWhile.symm,
    fun c mem => List.mem_rtakeWhile_imp mem, ?_⟩
  intro c last
  obtain ⟨some, rfl⟩ := List.mem_getLast?_eq_getLast last
  simpa using List.rdropWhile_last_not isBlank text some

private theorem core_trim (text : List Char) : Core text (trim text) := by
  have front := List.takeWhile_append_dropWhile (p := isBlank) (l := text)
  obtain ⟨after, rest, blank, last⟩ := rdropWhile_blanks (text.dropWhile isBlank)
  change _ = trim text ++ after at rest
  refine ⟨⟨text.takeWhile isBlank, after, ?_, ?_, blank⟩, ?_, last⟩
  · rw [List.append_assoc, ← rest, front]
  · exact fun c mem => List.mem_takeWhile_imp mem
  · intro c first
    have kept := List.head?_dropWhile_not isBlank text
    rw [rest, List.head?_append, Option.mem_def.mp first] at kept
    simpa using kept

namespace Base64

private theorem symbol_plain : ∀ n < 64,
    symbol n ≠ ':' ∧ isBlank (symbol n) = false ∧ isPlainBlank (symbol n) = false := by
  decide +kernel

private theorem IsSymbol.plain {c : Char} (h : IsSymbol c) :
    c ≠ ':' ∧ isBlank c = false ∧ isPlainBlank c = false := by
  rcases h with rfl | ⟨n, less, rfl⟩
  · decide
  · exact symbol_plain n less

end Base64

end Text

namespace Picture

open Text (Core)
open Text.Base64 (IsSymbol)

private theorem endsIn_iff {ending text : List Char} :
    endsIn ending text = true ↔ ending <:+ text := by
  rw [endsIn, List.isPrefixOf_iff_prefix, List.reverse_prefix]

/-- Symbols stand in a text alone, or behind the head of an address with the mark of sixty-four
symbols. -/
inductive Carries : List Char → List Char → Prop
  | bare {symbols : List Char} (plain : ¬ "data:".toList <+: symbols) : Carries symbols symbols
  | address {head symbols : List Char} (free : ',' ∉ head) (marked : ";base64".toList <:+ head) :
      Carries ("data:".toList ++ head ++ ',' :: symbols) symbols

/-- Symbols are those of some bytes, with plain blanks anywhere among them. -/
def Means (bytes : ByteArray) (symbols : List Char) : Prop :=
  symbols.filter (fun c => !Text.isPlainBlank c) = (Text.Base64.encode bytes).toList

variable {text symbols : List Char}

private theorem payloadSymbols_of_carries (h : Carries (Text.trim text) symbols) :
    payloadSymbols text = .ok symbols := by
  unfold payloadSymbols
  generalize Text.trim text = core at h
  cases h with
  | bare plain =>
    rw [← List.isPrefixOf_iff_prefix] at plain
    simp only [plain, if_false, Bool.false_eq_true]
  | @address head symbols free marked =>
    have front : "data:".toList.isPrefixOf ("data:".toList ++ head ++ ',' :: symbols) = true := by
      rw [List.append_assoc, List.isPrefixOf_iff_prefix]
      exact List.prefix_append _ _
    have rest : ("data:".toList ++ head ++ ',' :: symbols).drop 5 = head ++ ',' :: symbols := by
      rw [List.append_assoc]
      rfl
    have other : ∀ c ∈ head, (c != ',') = true := by
      intro c mem
      rw [bne_iff_ne]
      rintro rfl
      exact free mem
    have comma : (',' != ',') = false := by decide
    simp only [front, rest, if_true, List.dropWhile_append_of_pos other,
      List.takeWhile_append_of_pos other, List.dropWhile_cons, List.takeWhile_cons, comma,
      Bool.false_eq_true, if_false, List.append_nil, endsIn_iff.mpr marked]

private theorem carries_of_payloadSymbols (h : payloadSymbols text = .ok symbols) :
    Carries (Text.trim text) symbols := by
  unfold payloadSymbols at h
  generalize Text.trim text = core at h
  simp only at h
  split at h
  · rename_i front
    obtain ⟨rest, rfl⟩ := List.isPrefixOf_iff_prefix.mp front
    rw [show ("data:".toList ++ rest).drop 5 = rest from rfl] at h
    have parts := List.takeWhile_append_dropWhile (p := (· != ',')) (l := rest)
    have comma := List.head?_dropWhile_not (· != ',') rest
    split at h
    · exact nomatch h
    · rename_i c behind tail
      split at h
      · rename_i marked
        obtain rfl := Except.ok.inj h
        obtain rfl : c = ',' := by simpa [tail] using comma
        rw [← parts, tail, ← List.append_assoc]
        refine Carries.address (fun mem => ?_) (endsIn_iff.mp marked)
        simpa using List.mem_takeWhile_imp mem
      · exact nomatch h
  · rename_i plain
    rw [List.isPrefixOf_iff_prefix] at plain
    obtain rfl := Except.ok.inj h
    exact Carries.bare plain

private theorem payloadSymbols_error {e : Fault} (failed : payloadSymbols text = .error e) :
    ∃ text, e = .rasterization text := by
  unfold payloadSymbols at failed
  simp only at failed
  split at failed
  · split at failed
    · exact ⟨_, (Except.error.inj failed).symm⟩
    · split at failed
      · simp at failed
      · exact ⟨_, (Except.error.inj failed).symm⟩
  · simp at failed

namespace Means

variable {bytes : ByteArray} {c : Char}

private theorem isSymbol (means : Means bytes symbols) (mem : c ∈ symbols)
    (visible : Text.isPlainBlank c = false) : IsSymbol c := by
  refine Text.Base64.encode_isSymbol bytes c ?_
  rw [← means, List.mem_filter, visible]
  exact ⟨mem, rfl⟩

private theorem plainBlank (means : Means bytes symbols) (mem : c ∈ symbols)
    (blank : Text.isBlank c = true) : Text.isPlainBlank c = true := by
  by_contra visible
  rw [Bool.not_eq_true] at visible
  obtain ⟨-, inked, -⟩ := (means.isSymbol mem visible).plain
  exact nomatch inked.symm.trans blank

private theorem filter_blanks (means : Means bytes symbols) {blanks : List Char}
    (inside : ∀ c ∈ blanks, c ∈ symbols) (blank : ∀ c ∈ blanks, Text.isBlank c = true) :
    blanks.filter (fun c => !Text.isPlainBlank c) = [] := by
  refine List.filter_eq_nil_iff.mpr fun c mem => ?_
  rw [means.plainBlank (inside c mem) (blank c mem)]
  decide

private theorem core {before core after : List Char} (means : Means bytes (before ++ core ++ after))
    (blank : ∀ c ∈ before, Text.isBlank c = true) (blank' : ∀ c ∈ after, Text.isBlank c = true) :
    Means bytes core := by
  have none := means.filter_blanks (by simp +contextual) blank
  have none' := means.filter_blanks (by simp +contextual) blank'
  rwa [Means, List.filter_append, List.filter_append, none, none', List.nil_append,
    List.append_nil] at means

private theorem not_address (means : Means bytes symbols) : ¬ "data:".toList <+: symbols := by
  intro front
  have colon : ':' ∈ symbols := front.subset (by decide)
  exact (means.isSymbol colon (by decide)).plain.1 rfl

end Means

theorem means_encode (bytes : ByteArray) : Means bytes (Text.Base64.encode bytes).toList := by
  refine List.filter_eq_self.mpr fun c mem => ?_
  rw [(Text.Base64.encode_isSymbol bytes c mem).plain.2.2]
  rfl

variable {bytes : ByteArray}

/-- A text is a payload of some bytes: what is left of it without the blanks around it carries their
symbols. -/
def IsPayload (bytes : ByteArray) (text : String) : Prop :=
  ∃ core symbols, Core text.toList core ∧ Carries core symbols ∧ Means bytes symbols

private theorem payloadBytes_iff {text : String} :
    payloadBytes text = .ok bytes ↔ IsPayload bytes text := by
  constructor
  · intro read
    rcases carried : payloadSymbols text.toList with e | symbols
    · simp [payloadBytes, carried, bind, Except.bind] at read
    · refine ⟨_, symbols, Text.core_trim _, carries_of_payloadSymbols carried, ?_⟩
      simp only [payloadBytes, carried, bind, Except.bind, pure, Except.pure] at read
      split at read
      · rename_i file decoded
        obtain rfl := Except.ok.inj read
        have same := Text.Base64.decode_eq_some_iff.mp decoded
        rw [Means, ← same, String.toList_ofList]
      · exact nomatch read
  · rintro ⟨core, symbols, inner, carries, means⟩
    rw [inner.eq_trim] at carries
    simp only [payloadBytes, payloadSymbols_of_carries carries, bind, Except.bind]
    rw [means, String.ofList_toList, Text.Base64.decode_encode]
    rfl

theorem payloadBytes_error {text : String} {e : Fault} (failed : payloadBytes text = .error e) :
    ∃ why, e = .rasterization why := by
  rcases carried : payloadSymbols text.toList with e' | symbols
  · obtain rfl : e' = e := by simpa [payloadBytes, carried, bind, Except.bind] using failed
    exact payloadSymbols_error carried
  · simp only [payloadBytes, carried, bind, Except.bind, pure, Except.pure] at failed
    split at failed
    · exact nomatch failed
    · exact ⟨_, (Except.error.inj failed).symm⟩

/-- Behind an address of any kind stand the bytes that its symbols mean. -/
theorem payloadBytes_address {kind symbols : String} (free : ',' ∉ kind.toList)
    (means : Means bytes symbols.toList) :
    payloadBytes ("data:" ++ kind ++ ";base64," ++ symbols) = .ok bytes := by
  obtain ⟨after, rest, blank, last⟩ := Text.rdropWhile_blanks symbols.toList
  generalize symbols.toList.rdropWhile Text.isBlank = kept at rest last
  -- Blanks behind the symbols are cut off with those at the ends of the text.
  have core : Core ("data:" ++ kind ++ ";base64," ++ symbols).toList
      ("data:".toList ++ (kind.toList ++ ";base64".toList) ++ ',' :: kept) := by
    refine ⟨⟨[], after, ?_, nofun, blank⟩, ?_, ?_⟩
    · simp [rest]
    · intro c first
      obtain rfl : 'd' = c := by simpa using first
      decide
    · intro c final
      rw [List.getLast?_append, List.getLast?_cons, Option.some_or, Option.mem_some_iff] at final
      cases stop : kept.getLast? with
      | none =>
        obtain rfl : ',' = c := by simpa [stop] using final
        decide
      | some d =>
        obtain rfl : d = c := by simpa [stop] using final
        exact last d stop
  refine payloadBytes_iff.mpr ⟨_, kept, core, Carries.address ?_ (List.suffix_append _ _), ?_⟩
  · rw [List.mem_append]
    rintro (mem | mem)
    · exact free mem
    · exact absurd mem (by decide)
  · have whole : Means bytes ([] ++ kept ++ after) := by rwa [rest] at means
    exact whole.core nofun blank

private theorem payloadBytes_bare {symbols : String} (means : Means bytes symbols.toList) :
    payloadBytes symbols = .ok bytes := by
  have core := Text.core_trim symbols.toList
  obtain ⟨before, after, whole, blank, blank'⟩ := core.around
  rw [whole] at means
  have inner := means.core blank blank'
  exact payloadBytes_iff.mpr ⟨_, _, core, Carries.bare inner.not_address, inner⟩

/-- Exactly the payloads of some bytes are read as these bytes, and all other texts are refused. -/
theorem payloadBytes_grammar :
    (∀ text bytes, payloadBytes text = .ok bytes ↔ IsPayload bytes text) ∧
    (∀ text, (∀ bytes, ¬ IsPayload bytes text) →
      ∃ why, payloadBytes text = .error (.rasterization why)) ∧
    ∀ bytes (kind symbols : String), ',' ∉ kind.toList → Means bytes symbols.toList →
      payloadBytes ("data:" ++ kind ++ ";base64," ++ symbols) = .ok bytes ∧
        payloadBytes symbols = .ok bytes := by
  refine ⟨fun _ _ => payloadBytes_iff, ?_, ?_⟩
  · intro text none
    rcases read : payloadBytes text with e | bytes
    · obtain ⟨why, rfl⟩ := payloadBytes_error read
      exact ⟨why, rfl⟩
    · exact absurd (payloadBytes_iff.mp read) (none bytes)
  · intro bytes kind symbols free means
    exact ⟨payloadBytes_address free means, payloadBytes_bare means⟩

/-- Two bytes with blanks among their symbols, and the same symbols with a comma behind them. -/
theorem payloadBytes_twoBytes :
    ',' ∉ "text/plain;charset=utf-8".toList ∧ Means ⟨#[77, 97]⟩ " TW\tE=\n".toList ∧
      payloadBytes ("data:" ++ "text/plain;charset=utf-8" ++ ";base64," ++ " TW\tE=\n") =
        .ok ⟨#[77, 97]⟩ ∧
      payloadBytes " TW\tE=\n" = .ok ⟨#[77, 97]⟩ ∧
      (∀ bytes, ¬ IsPayload bytes "data:;base64,TWE=,") ∧
      ∃ why, payloadBytes "data:;base64,TWE=," = .error (.rasterization why) := by
  obtain ⟨accepted, refused, both⟩ := payloadBytes_grammar
  have free : ',' ∉ "text/plain;charset=utf-8".toList := by decide
  have means : Means ⟨#[77, 97]⟩ " TW\tE=\n".toList := by
    unfold Means
    decide +kernel
  have none : ∀ bytes, ¬ IsPayload bytes "data:;base64,TWE=," := by
    intro bytes payload
    have failed : (payloadBytes "data:;base64,TWE=,").isOk = false := by decide +kernel
    rw [(accepted _ _).mpr payload] at failed
    exact nomatch failed
  obtain ⟨address, bare⟩ := both ⟨#[77, 97]⟩ _ _ free means
  exact ⟨free, means, address, bare, none, refused _ none⟩

end Picture

end Texture
