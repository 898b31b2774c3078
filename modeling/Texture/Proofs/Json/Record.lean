/- Texture/Proofs/Json/Record
   digest: Reading records: their fields in any order and with others between them, and what every
   field keeps. -/

import Mathlib.Data.List.Nodup
import Texture.Proofs.Json.Value

set_option autoImplicit false
set_option relaxedAutoImplicit false

namespace Texture.Json

namespace Draft

theorem refuse_ne_ok {α : Type} {expected : String} {d : Draft} {a : α} :
    d.refuse expected ≠ .ok a := by
  intro read
  obtain ⟨_, -, read⟩ := bind_eq_ok.1 read
  cases read

theorem readOption_eq_some {α : Type} {read : Draft → Except Refusal α} {d : Draft} {a : α}
    (done : d.readOption read = .ok (some a)) : read d = .ok a := by
  cases d with
  | null => cases done
  | bool _ | number _ | string _ | array _ | object _ =>
    simp only [readOption] at done
    obtain ⟨b, one, same⟩ := bind_eq_ok.1 ((map_eq_pure_bind _ _).symm.trans done)
    cases same
    exact one

private theorem mapM_eq_ok {α β : Type} {read : α → Except Refusal β} {ds : List α} {xs : List β} :
    ds.mapM read = .ok xs ↔ List.Forall₂ (fun d x => read d = .ok x) ds xs := by
  induction ds generalizing xs with
  | nil =>
    rw [List.mapM_nil, List.forall₂_nil_left_iff]
    exact ⟨fun same => by cases same; rfl, fun same => by rw [same]; rfl⟩
  | cons d ds ih =>
    rw [List.mapM_cons, List.forall₂_cons_left_iff]
    constructor
    · intro done
      obtain ⟨x, one, done⟩ := bind_eq_ok.1 done
      obtain ⟨rest, more, done⟩ := bind_eq_ok.1 done
      cases done
      exact ⟨x, rest, one, ih.1 more, rfl⟩
    · rintro ⟨x, rest, one, more, rfl⟩
      exact bind_eq_ok.2 ⟨x, one, bind_eq_ok.2 ⟨rest, ih.2 more, rfl⟩⟩

private theorem exists_of_forall₂ {α β : Type} {R : α → β → Prop} {ds : List α} {xs : List β}
    (each : List.Forall₂ R ds xs) {x : β} (mem : x ∈ xs) : ∃ d ∈ ds, R d x := by
  induction each with
  | nil => cases mem
  | cons one _ ih =>
    rcases List.mem_cons.1 mem with rfl | mem
    · exact ⟨_, by simp, one⟩
    · obtain ⟨d, inside, related⟩ := ih mem
      exact ⟨d, by simp [inside], related⟩

theorem readList_array {α : Type} {read : Origin → Draft → Except Refusal α} {origin inner : Origin}
    {items : List Draft} {xs : List α} (entered : origin.enter = .ok inner)
    (each : List.Forall₂ (fun d x => read inner d = .ok x) items xs) :
    (array items).readList read origin = .ok xs := by
  simp only [readList, entered, ok_bind]
  exact mapM_eq_ok.2 each

theorem of_readList {α : Type} {read : Origin → Draft → Except Refusal α} {origin : Origin}
    {d : Draft} {xs : List α} (held : d.InRange) (done : d.readList read origin = .ok xs) :
    ∃ inner, origin.enter = .ok inner ∧ ∀ x ∈ xs, ∃ e : Draft, e.InRange ∧ read inner e = .ok x := by
  cases d with
  | array items =>
    obtain ⟨inner, entered, done⟩ := bind_eq_ok.1 done
    refine ⟨inner, entered, fun x mem => ?_⟩
    obtain ⟨e, inside, one⟩ := exists_of_forall₂ (mapM_eq_ok.1 done) mem
    exact ⟨e, itemsInRange_iff.1 held e inside, one⟩
  | null | bool _ | number _ | string _ | object _ => exact absurd done refuse_ne_ok

end Draft

namespace Shape

variable {σ : Type} {shape : Shape σ} {origin : Origin}

def Takes (shape : Shape σ) (origin : Origin) (s : σ) (field : Scalar String × Draft) (t : σ) :
    Prop :=
  ∃ name, field.1 = .ok name ∧
    (shape.slot? name = none ∧ t = s ∨
      ∃ slot, shape.slot? name = some slot ∧ slot.filled s = false
        ∧ slot.read origin field.2 s = .ok t)

private theorem readFields_cons_eq_ok {s t : σ} {field : Scalar String × Draft}
    {rest : List (Scalar String × Draft)} :
    shape.readFields origin s (field :: rest) = .ok t ↔
      ∃ u, shape.Takes origin s field u ∧ shape.readFields origin u rest = .ok t := by
  obtain ⟨key, d⟩ := field
  cases key with
  | error reason =>
    constructor
    · exact nofun
    · rintro ⟨u, ⟨name, same, -⟩, -⟩
      cases same
  | ok name =>
    cases found : shape.slot? name with
    | none =>
      -- A name without a field leaves the state as it is.
      have passed : shape.readFields origin s ((.ok name, d) :: rest)
          = shape.readFields origin s rest := by
        simp only [readFields, ok_bind, found]
      rw [passed]
      constructor
      · exact fun read => ⟨s, ⟨name, rfl, .inl ⟨found, rfl⟩⟩, read⟩
      · rintro ⟨u, ⟨other, same, ⟨-, rfl⟩ | ⟨slot, known, -⟩⟩, read⟩
        · exact read
        · cases same
          rw [found] at known
          cases known
    | some slot =>
      have opened : shape.readFields origin s ((.ok name, d) :: rest)
          = if slot.filled s then .error (.repeated slot.name)
            else slot.read origin d s >>= fun u => shape.readFields origin u rest := by
        simp only [readFields, ok_bind, found]
      rw [opened]
      constructor
      · intro read
        split at read
        · cases read
        · rename_i empty
          obtain ⟨u, one, read⟩ := bind_eq_ok.1 read
          exact ⟨u, ⟨name, rfl, .inr ⟨slot, found, by simpa using empty, one⟩⟩, read⟩
      · rintro ⟨u, ⟨other, same, ⟨none, -⟩ | ⟨other_slot, known, empty, one⟩⟩, read⟩
        · cases same
          rw [found] at none
          cases none
        · cases same
          rw [found] at known
          cases known
          simp only [empty, Bool.false_eq_true, if_false]
          exact bind_eq_ok.2 ⟨u, one, read⟩

theorem readFields_slot {name : String} {d : Draft} {rest : List (Scalar String × Draft)}
    {slot : Slot σ} {s t u : σ} (known : shape.slot? name = some slot)
    (empty : slot.filled s = false) (one : slot.read origin d s = .ok u)
    (later : shape.readFields origin u rest = .ok t) :
    shape.readFields origin s ((.ok name, d) :: rest) = .ok t :=
  readFields_cons_eq_ok.2 ⟨u, ⟨name, rfl, .inr ⟨slot, known, empty, one⟩⟩, later⟩

theorem read_object {inner : Origin} {fields : List (Scalar String × Draft)} {s t : σ}
    (entered : origin.enter = .ok inner) (read : shape.readFields inner s fields = .ok t)
    (full : shape.slots.find? (fun slot => !slot.optional && !slot.filled t) = none) :
    shape.read s origin (.object fields) = .ok t := by
  simp only [Shape.read, entered, ok_bind, read, full]

/-- Each field of a record fills a place of its own: no other field fills it, and what two fields say
is the same in either order. -/
structure Lawful (shape : Shape σ) : Prop where
  names : (shape.slots.map Slot.name).Nodup
  fills : ∀ slot ∈ shape.slots, ∀ origin d s t, slot.read origin d s = .ok t →
    slot.filled t = true
  apart : ∀ a ∈ shape.slots, ∀ b ∈ shape.slots, a.name ≠ b.name →
    ∀ origin d s t, a.read origin d s = .ok t → b.filled t = b.filled s
  commute : ∀ a ∈ shape.slots, ∀ b ∈ shape.slots, a.name ≠ b.name →
    ∀ origin d e s t u, a.read origin d s = .ok t → b.read origin e t = .ok u →
      ∃ v, b.read origin e s = .ok v ∧ a.read origin d v = .ok u

private theorem Takes.swap (lawful : shape.Lawful) {s t u : σ} {x y : Scalar String × Draft}
    (first : shape.Takes origin s x t) (second : shape.Takes origin t y u) :
    ∃ v, shape.Takes origin s y v ∧ shape.Takes origin v x u := by
  obtain ⟨m, xNamed, ⟨xUnknown, rfl⟩ | ⟨a, xKnown, aEmpty, aRead⟩⟩ := first
  · exact ⟨u, second, m, xNamed, .inl ⟨xUnknown, rfl⟩⟩
  obtain ⟨n, yNamed, ⟨yUnknown, rfl⟩ | ⟨b, yKnown, bEmpty, bRead⟩⟩ := second
  · exact ⟨s, ⟨n, yNamed, .inl ⟨yUnknown, rfl⟩⟩, m, xNamed, .inr ⟨a, xKnown, aEmpty, aRead⟩⟩
  have aHeld : a ∈ shape.slots := List.mem_of_find?_eq_some xKnown
  have bHeld : b ∈ shape.slots := List.mem_of_find?_eq_some yKnown
  have other : a.name ≠ b.name := by
    intro same
    have one : a = b := List.inj_on_of_nodup_map lawful.names aHeld bHeld same
    have full : a.filled t = true := lawful.fills a aHeld _ _ _ _ aRead
    rw [one, bEmpty] at full
    cases full
  have bBefore : b.filled s = false :=
    (lawful.apart a aHeld b bHeld other _ _ _ _ aRead).symm.trans bEmpty
  obtain ⟨v, bFirst, aSecond⟩ := lawful.commute a aHeld b bHeld other _ _ _ _ _ _ aRead bRead
  have aAfter : a.filled v = false :=
    (lawful.apart b bHeld a aHeld other.symm _ _ _ _ bFirst).trans aEmpty
  exact ⟨v, ⟨n, yNamed, .inr ⟨b, yKnown, bBefore, bFirst⟩⟩,
    m, xNamed, .inr ⟨a, xKnown, aAfter, aSecond⟩⟩

/-- The fields of a record may come in any order. -/
theorem readFields_perm (lawful : shape.Lawful) {fields others : List (Scalar String × Draft)}
    (perm : fields.Perm others) {s t : σ} (read : shape.readFields origin s fields = .ok t) :
    shape.readFields origin s others = .ok t := by
  induction perm generalizing s with
  | nil => exact read
  | cons field _ ih =>
    obtain ⟨u, taken, rest⟩ := readFields_cons_eq_ok.1 read
    exact readFields_cons_eq_ok.2 ⟨u, taken, ih rest⟩
  | swap x y rest =>
    obtain ⟨u, first, read⟩ := readFields_cons_eq_ok.1 read
    obtain ⟨v, second, read⟩ := readFields_cons_eq_ok.1 read
    obtain ⟨w, second, first⟩ := first.swap lawful second
    exact readFields_cons_eq_ok.2 ⟨w, second, readFields_cons_eq_ok.2 ⟨v, first, read⟩⟩
  | trans _ _ first second => exact second (first read)

theorem readFields_extras {extras : List (Scalar String × Draft)}
    (unknown : ∀ field ∈ extras, ∃ name, field.1 = .ok name ∧ shape.slot? name = none) (s : σ) :
    shape.readFields origin s extras = .ok s := by
  induction extras with
  | nil => rfl
  | cons field rest ih =>
    obtain ⟨here, later⟩ := List.forall_mem_cons.1 unknown
    obtain ⟨name, named, none⟩ := here
    exact readFields_cons_eq_ok.2 ⟨s, ⟨name, named, .inl ⟨none, rfl⟩⟩, ih later⟩

section Keeps

variable {P : σ → Prop}

private theorem readFields_keeps
    (each : ∀ slot ∈ shape.slots, ∀ d s t, d.InRange → P s → slot.read origin d s = .ok t → P t)
    {fields : List (Scalar String × Draft)} (held : Draft.FieldsInRange fields) {s t : σ}
    (start : P s) (read : shape.readFields origin s fields = .ok t) : P t := by
  induction fields generalizing s with
  | nil =>
    cases read
    exact start
  | cons field rest ih =>
    obtain ⟨u, taken, later⟩ := readFields_cons_eq_ok.1 read
    obtain ⟨name, -, ⟨-, rfl⟩ | ⟨slot, known, -, one⟩⟩ := taken
    · exact ih held.2 start later
    · have inside : slot ∈ shape.slots := List.mem_of_find?_eq_some known
      exact ih held.2 (each slot inside field.2 s u held.1 start one) later

private theorem readItems_keeps {slots : List (Slot σ)} {total count : Nat}
    (each : ∀ slot ∈ slots, ∀ d s t, d.InRange → P s → slot.read origin d s = .ok t → P t)
    {items : List Draft} (held : Draft.ItemsInRange items) {s t : σ} (start : P s)
    (read : shape.readItems origin total count slots items s = .ok t) : P t := by
  induction slots generalizing count items s with
  | nil =>
    cases items with
    | nil =>
      cases read
      exact start
    | cons d ds => cases origin <;> cases read
  | cons slot slots ih =>
    obtain ⟨here, later⟩ := List.forall_mem_cons.1 each
    cases items with
    | nil =>
      simp only [readItems] at read
      split at read
      · exact ih later held start read
      · cases read
    | cons d ds =>
      obtain ⟨u, one, read⟩ := bind_eq_ok.1 read
      exact ih later held.2 (here d s u held.1 start one) read

/-- What each field of a record keeps is kept by reading the whole record, in either form. -/
theorem read_keeps
    (each : ∀ inner, origin.enter = .ok inner → ∀ slot ∈ shape.slots, ∀ d s t, d.InRange → P s →
      slot.read inner d s = .ok t → P t)
    {d : Draft} (held : d.InRange) {s t : σ} (start : P s) (read : shape.read s origin d = .ok t) :
    P t := by
  cases d with
  | object fields =>
    obtain ⟨inner, entered, read⟩ := bind_eq_ok.1 read
    obtain ⟨u, fields, read⟩ := bind_eq_ok.1 read
    have kept : P u := readFields_keeps (each inner entered) held start fields
    split at read
    · cases read
    · cases read
      exact kept
  | array items =>
    obtain ⟨inner, entered, read⟩ := bind_eq_ok.1 read
    exact readItems_keeps (each inner entered) held start read
  | null | bool _ | number _ | string _ =>
    exact absurd read Draft.refuse_ne_ok

end Keeps

end Shape

end Texture.Json
