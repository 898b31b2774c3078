/- Texture/Proofs/Json/Value
   digest: Values as bags hold them: which there are, how deep they go, and that a tree is read as the
   value it was made from. -/

import Mathlib.Data.String.Basic
import Texture.Json.Reading

set_option autoImplicit false
set_option relaxedAutoImplicit false

namespace Texture

open Json (Draft Origin Refusal)

namespace Bag

/-- In ascending order of the names, so that no name occurs twice. -/
def Ascending (bag : Bag) : Prop := bag.Pairwise fun first second => first.1 < second.1

instance (bag : Bag) : Decidable bag.Ascending :=
  inferInstanceAs (Decidable (bag.Pairwise fun first second => first.1 < second.1))

private theorem insert_of_lt {bag : Bag} {name : String} {value : Json}
    (above : ∀ field ∈ bag, field.1 < name) :
    bag.insert name value = bag ++ [(name, value)] := by
  induction bag with
  | nil => rfl
  | cons field rest ih =>
    have below : field.1 < name := above field (by simp)
    have later : insert name value rest = rest ++ [(name, value)] :=
      ih fun other held => above other (by simp [held])
    simp [insert, not_lt_of_gt below, ne_of_gt below, later]

private theorem mem_insert {bag : Bag} {name : String} {value : Json} {field : String × Json}
    (held : field ∈ bag.insert name value) : field = (name, value) ∨ field ∈ bag := by
  induction bag with
  | nil => simpa [insert] using held
  | cons first rest ih =>
    obtain ⟨found, old⟩ := first
    simp only [insert] at held
    split_ifs at held with before same
    · simpa using held
    · rcases List.mem_cons.1 held with rfl | held
      · exact .inl rfl
      · exact .inr (by simp [held])
    · rcases List.mem_cons.1 held with rfl | held
      · exact .inr (by simp)
      · exact (ih held).imp_right fun inside => by simp [inside]

private theorem Ascending.insert {bag : Bag} (ordered : bag.Ascending) (name : String)
    (value : Json) : (bag.insert name value).Ascending := by
  induction bag with
  | nil => exact List.pairwise_singleton _ _
  | cons first rest ih =>
    obtain ⟨found, old⟩ := first
    have tail : ∀ field ∈ rest, found < field.1 := (List.pairwise_cons.1 ordered).1
    have inner : Ascending rest := (List.pairwise_cons.1 ordered).2
    simp only [Bag.insert]
    split_ifs with before same
    · refine List.pairwise_cons.2 ⟨fun field held => ?_, ordered⟩
      rcases List.mem_cons.1 held with rfl | held
      · exact before
      · exact before.trans (tail field held)
    · subst same
      exact List.pairwise_cons.2 ⟨tail, inner⟩
    · have after : found < name := lt_of_le_of_ne (not_lt.1 before) (Ne.symm same)
      refine List.pairwise_cons.2 ⟨fun field held => ?_, ih inner⟩
      rcases mem_insert held with rfl | held
      · exact after
      · exact tail field held

private theorem get?_cons (name : String) (value : Json) (rest : Bag) (key : String) :
    get? ((name, value) :: rest) key = if key = name then some value else rest.get? key := by
  rw [get?, List.lookup_cons]
  by_cases same : key = name
  · simp [same]
  · simp [same, beq_eq_false_iff_ne.mpr same, get?]

theorem get?_insert (bag : Bag) (name : String) (value : Json) (key : String) :
    (bag.insert name value).get? key = if key = name then some value else bag.get? key := by
  induction bag with
  | nil => rw [insert, get?_cons]
  | cons first rest ih =>
    obtain ⟨found, old⟩ := first
    rw [insert]
    by_cases before : name < found
    · rw [if_pos before, get?_cons]
    · rw [if_neg before]
      by_cases same : name = found
      · subst same
        rw [if_pos rfl, get?_cons, get?_cons]
        split <;> rfl
      · rw [if_neg same, get?_cons, get?_cons, ih]
        by_cases hit : key = found
        · have apart : key ≠ name := fun named => same (named.symm.trans hit)
          rw [if_pos hit, if_pos hit, if_neg apart]
        · rw [if_neg hit, if_neg hit]

private theorem get?_eq_none {bag : Bag} {key : String} (above : ∀ field ∈ bag, key < field.1) :
    bag.get? key = none := by
  refine List.lookup_eq_none_iff.2 fun field held => ?_
  exact bne_iff_ne.2 (ne_of_lt (above field held))

theorem get?_merge {patch : Bag} (ordered : patch.Ascending) (bag : Bag) (key : String) :
    (bag.merge patch).get? key = (patch.get? key).or (bag.get? key) := by
  induction patch generalizing bag with
  | nil => rfl
  | cons first rest ih =>
    obtain ⟨name, value⟩ := first
    obtain ⟨above, later⟩ := List.pairwise_cons.1 ordered
    have step : bag.merge ((name, value) :: rest) = (bag.insert name value).merge rest := rfl
    rw [step, ih later, get?_insert, get?_cons]
    split
    · rename_i same
      rw [same, get?_eq_none above]
      rfl
    · rfl

theorem Ascending.merge {bag : Bag} (ordered : bag.Ascending) (patch : Bag) :
    (bag.merge patch).Ascending := by
  induction patch generalizing bag with
  | nil => exact ordered
  | cons first rest ih => exact ih (ordered.insert first.1 first.2)

end Bag

namespace Json

theorem bind_eq_ok {ε α β : Type} {x : Except ε α} {f : α → Except ε β} {b : β} :
    x >>= f = .ok b ↔ ∃ a, x = .ok a ∧ f a = .ok b := by
  cases x with
  | error e => exact ⟨nofun, nofun⟩
  | ok a => exact ⟨fun done => ⟨a, rfl, done⟩, fun ⟨_, same, done⟩ => by cases same; exact done⟩

theorem ok_bind {ε α β : Type} (a : α) (f : α → Except ε β) : Except.ok a >>= f = f a := rfl

def Numeral.InRange : Numeral → Prop
  | natural n => n ≤ Lexeme.limit
  | negative n => 0 < n ∧ n ≤ 9223372036854775808
  | real _ => True

mutual

/-- Whole numbers are in range, and the fields of every object in order. -/
def IsValue : Json → Prop
  | null | bool _ | string _ => True
  | number n => n.InRange
  | array items => AreValues items
  | object fields => Bag.Ascending fields ∧ AreFields fields

def AreValues : List Json → Prop
  | [] => True
  | x :: xs => x.IsValue ∧ AreValues xs

def AreFields : List (String × Json) → Prop
  | [] => True
  | (_, x) :: rest => x.IsValue ∧ AreFields rest

end

mutual

/-- How many arrays and objects are open at once. -/
def depth : Json → Nat
  | null | bool _ | number _ | string _ => 0
  | array items => depthOfItems items + 1
  | object fields => depthOfFields fields + 1

def depthOfItems : List Json → Nat
  | [] => 0
  | x :: xs => max x.depth (depthOfItems xs)

def depthOfFields : List (String × Json) → Nat
  | [] => 0
  | (_, x) :: rest => max x.depth (depthOfFields rest)

end

private theorem areFields_iff {fields : List (String × Json)} :
    AreFields fields ↔ ∀ field ∈ fields, field.2.IsValue := by
  induction fields with
  | nil => simp [AreFields]
  | cons field rest ih => simp [AreFields, ih]

theorem depthOfItems_le_iff {items : List Json} {n : Nat} :
    depthOfItems items ≤ n ↔ ∀ x ∈ items, x.depth ≤ n := by
  induction items with
  | nil => simp [depthOfItems]
  | cons x xs ih => simp [depthOfItems, ih]

private theorem depthOfFields_le_iff {fields : List (String × Json)} {n : Nat} :
    depthOfFields fields ≤ n ↔ ∀ field ∈ fields, field.2.depth ≤ n := by
  induction fields with
  | nil => simp [depthOfFields]
  | cons field rest ih => simp [depthOfFields, ih]

private theorem areFields_insert {bag : Bag} {name : String} {x : Json} (held : AreFields bag)
    (value : x.IsValue) : AreFields (bag.insert name x) := by
  refine areFields_iff.2 fun field inside => ?_
  rcases Bag.mem_insert inside with rfl | inside
  · exact value
  · exact areFields_iff.1 held field inside

private theorem depthOfFields_insert (bag : Bag) (name : String) (x : Json) :
    depthOfFields (bag.insert name x) ≤ max (depthOfFields bag) x.depth := by
  refine depthOfFields_le_iff.2 fun field inside => ?_
  rcases Bag.mem_insert inside with rfl | inside
  · exact le_max_right _ _
  · exact (depthOfFields_le_iff.1 le_rfl field inside).trans (le_max_left _ _)

namespace Origin

def Allows : Origin → Nat → Prop
  | text levels, n => n ≤ levels - 1
  | value, _ => True

instance (origin : Origin) (n : Nat) : Decidable (origin.Allows n) :=
  match origin with
  | text levels => inferInstanceAs (Decidable (n ≤ levels - 1))
  | value => isTrue trivial

theorem allows_zero (origin : Origin) : origin.Allows 0 := by
  cases origin <;> simp [Allows]

theorem Allows.mono {origin : Origin} {m n : Nat} (fits : origin.Allows n) (le : m ≤ n) :
    origin.Allows m := by
  cases origin with
  | text levels => exact le.trans fits
  | value => trivial

theorem allows_succ_iff {origin : Origin} {n : Nat} :
    origin.Allows (n + 1) ↔ ∃ inner, origin.enter = .ok inner ∧ inner.Allows n := by
  cases origin with
  | text levels =>
    by_cases few : levels ≤ 1
    · have none : levels - 1 = 0 := by omega
      simp [Allows, enter, few, none]
    · have count : n + 1 ≤ levels - 1 ↔ n ≤ levels - 1 - 1 := by omega
      simp [Allows, enter, few, count]
  | value => simp [Allows, enter]

theorem allows_of_enter {origin inner : Origin} {n : Nat} (entered : origin.enter = .ok inner)
    (fits : inner.Allows n) : origin.Allows n :=
  (allows_succ_iff.2 ⟨inner, entered, fits⟩).mono (Nat.le_succ n)

theorem allows_max {origin : Origin} {m n : Nat} :
    origin.Allows (max m n) ↔ origin.Allows m ∧ origin.Allows n := by
  cases origin <;> simp [Allows]

end Origin

namespace Draft

mutual

private theorem toJson_ofJson {origin : Origin} {x : Json} (held : x.IsValue)
    (fits : origin.Allows x.depth) : (ofJson x).toJson origin = .ok x := by
  cases x with
  | null | bool _ | number _ | string _ => rfl
  | array items =>
    obtain ⟨inner, entered, fits⟩ := Origin.allows_succ_iff.1 fits
    have read : toItems inner (ofItems items) = .ok items := toItems_ofItems held fits
    simp only [ofJson, toJson, entered, ok_bind, read]
    rfl
  | object fields =>
    obtain ⟨inner, entered, fits⟩ := Origin.allows_succ_iff.1 fits
    have read : toFields inner (ofFields fields) [] = .ok fields :=
      toFields_ofFields (by rw [List.nil_append]; exact held.1) held.2 fits
    simp only [ofJson, toJson, entered, ok_bind, read]
    rfl

private theorem toItems_ofItems {origin : Origin} {items : List Json} (held : AreValues items)
    (fits : origin.Allows (depthOfItems items)) :
    toItems origin (ofItems items) = .ok items := by
  cases items with
  | nil => rfl
  | cons x xs =>
    obtain ⟨head, tail⟩ := Origin.allows_max.1 fits
    simp only [ofItems, toItems, toJson_ofJson held.1 head, toItems_ofItems held.2 tail]
    rfl

theorem toFields_ofFields {origin : Origin} {bag : Bag} {fields : List (String × Json)}
    (ordered : Bag.Ascending (bag ++ fields)) (held : AreFields fields)
    (fits : origin.Allows (depthOfFields fields)) :
    toFields origin (ofFields fields) bag = .ok (bag ++ fields) := by
  cases fields with
  | nil => simp [ofFields, toFields]
  | cons field rest =>
    obtain ⟨name, x⟩ := field
    obtain ⟨head, tail⟩ := Origin.allows_max.1 fits
    have above : ∀ field ∈ bag, field.1 < name := fun field inside =>
      (List.pairwise_append.1 ordered).2.2 field inside (name, x) (by simp)
    have split : bag ++ (name, x) :: rest = bag ++ [(name, x)] ++ rest := by simp
    have later : toFields origin (ofFields rest) (bag ++ [(name, x)])
        = .ok (bag ++ (name, x) :: rest) := by
      rw [split] at ordered ⊢
      exact toFields_ofFields ordered held.2 tail
    simp only [ofFields, toFields, toJson_ofJson held.1 head]
    change toFields origin (ofFields rest) (bag.insert name x) = _
    rw [Bag.insert_of_lt above]
    exact later

end

mutual

def InRange : Draft → Prop
  | null | bool _ | string _ => True
  | number n => ∀ m, n = .ok m → m.InRange
  | array items => ItemsInRange items
  | object fields => FieldsInRange fields

def ItemsInRange : List Draft → Prop
  | [] => True
  | d :: ds => d.InRange ∧ ItemsInRange ds

def FieldsInRange : List (Scalar String × Draft) → Prop
  | [] => True
  | (_, d) :: rest => d.InRange ∧ FieldsInRange rest

end

theorem itemsInRange_iff {items : List Draft} : ItemsInRange items ↔ ∀ d ∈ items, d.InRange := by
  induction items with
  | nil => simp [ItemsInRange]
  | cons d ds ih => simp [ItemsInRange, ih]

theorem fieldsInRange_iff {fields : List (Scalar String × Draft)} :
    FieldsInRange fields ↔ ∀ field ∈ fields, field.2.InRange := by
  induction fields with
  | nil => simp [FieldsInRange]
  | cons field rest ih => simp [FieldsInRange, ih]

mutual

private theorem isValue_of_toJson {origin : Origin} {d : Draft} {x : Json} (held : d.InRange)
    (read : d.toJson origin = .ok x) : x.IsValue ∧ origin.Allows x.depth := by
  -- An array or an object takes up one level, and what it holds has the others.
  cases d with
  | null | bool _ =>
    cases read
    exact ⟨trivial, origin.allows_zero⟩
  | number n =>
    cases n with
    | error reason => cases read
    | ok n =>
      cases read
      exact ⟨held n rfl, origin.allows_zero⟩
  | string s =>
    cases s with
    | error reason => cases read
    | ok s =>
      cases read
      exact ⟨trivial, origin.allows_zero⟩
  | array items =>
    obtain ⟨inner, entered, read⟩ := bind_eq_ok.1 read
    obtain ⟨xs, items, read⟩ := bind_eq_ok.1 read
    cases read
    obtain ⟨values, fits⟩ := areValues_of_toItems held items
    exact ⟨values, Origin.allows_succ_iff.2 ⟨inner, entered, fits⟩⟩
  | object fields =>
    obtain ⟨inner, entered, read⟩ := bind_eq_ok.1 read
    obtain ⟨bag, fields, read⟩ := bind_eq_ok.1 read
    cases read
    have start : IsValue (.object []) := ⟨List.Pairwise.nil, trivial⟩
    obtain ⟨value, fits⟩ := isValue_of_toFields held start (Origin.allows_zero inner) fields
    exact ⟨value, Origin.allows_succ_iff.2 ⟨inner, entered, fits⟩⟩

private theorem areValues_of_toItems {origin : Origin} {ds : List Draft} {xs : List Json}
    (held : ItemsInRange ds) (read : toItems origin ds = .ok xs) :
    AreValues xs ∧ origin.Allows (depthOfItems xs) := by
  cases ds with
  | nil =>
    cases read
    exact ⟨trivial, origin.allows_zero⟩
  | cons d ds =>
    obtain ⟨x, head, read⟩ := bind_eq_ok.1 read
    obtain ⟨rest, tail, read⟩ := bind_eq_ok.1 read
    cases read
    obtain ⟨value, fits⟩ := isValue_of_toJson held.1 head
    obtain ⟨values, fit⟩ := areValues_of_toItems held.2 tail
    exact ⟨⟨value, values⟩, Origin.allows_max.2 ⟨fits, fit⟩⟩

theorem isValue_of_toFields {origin : Origin} {fields : List (Scalar String × Draft)}
    {start bag : Bag} (held : FieldsInRange fields) (value : IsValue (.object start))
    (fits : origin.Allows (depthOfFields start)) (read : toFields origin fields start = .ok bag) :
    IsValue (.object bag) ∧ origin.Allows (depthOfFields bag) := by
  cases fields with
  | nil =>
    cases read
    exact ⟨value, fits⟩
  | cons field rest =>
    obtain ⟨key, d⟩ := field
    obtain ⟨name, -, read⟩ := bind_eq_ok.1 read
    obtain ⟨x, one, read⟩ := bind_eq_ok.1 read
    obtain ⟨added, fit⟩ := isValue_of_toJson held.1 one
    exact isValue_of_toFields held.2 ⟨value.1.insert name x, areFields_insert value.2 added⟩
      ((Origin.allows_max.2 ⟨fits, fit⟩).mono (depthOfFields_insert start name x)) read

end

end Draft

end Json

end Texture
