/- Texture/Proofs/Xml/Reader
   digest: The text of an element is read as the tags of its tree, and these as the tree again,
   whatever texts its attributes hold. -/

import Mathlib.Data.List.Nodup
import Texture.Xml.Reader

set_option autoImplicit false
set_option relaxedAutoImplicit false

namespace Texture.Xml

structure IsName (name : String) : Prop where
  some : name.toList ≠ []
  letters : ∀ c ∈ name.toList, Tag.isLetter c = true

instance (name : String) : Decidable (IsName name) :=
  decidable_of_iff (name.toList ≠ [] ∧ name.toList.all Tag.isLetter = true)
    ⟨fun h => ⟨h.1, List.all_eq_true.1 h.2⟩, fun h => ⟨h.1, List.all_eq_true.2 h.2⟩⟩

/-- Attributes of which each has a name, and no two have the same. -/
structure Distinct (attributes : List Attribute) : Prop where
  names : ∀ a ∈ attributes, IsName a.1
  keys : (attributes.map Prod.fst).Nodup

theorem Distinct.of_keys {attributes : List Attribute} (keys : List String)
    (good : keys.Nodup ∧ (keys.all fun key => decide (IsName key)) = true)
    (sub : (attributes.map Prod.fst).Sublist keys) : Distinct attributes := by
  refine ⟨fun a mem => ?_, good.1.sublist sub⟩
  exact of_decide_eq_true (List.all_eq_true.1 good.2 _ (sub.subset (List.mem_map_of_mem mem)))

namespace Tag

def attributes : Tag → List Attribute
  | start _ attributes | whole _ attributes => attributes
  | stop _ => []

def run (state : List Tag × Mode) (cs : List Char) : Option (List Tag × Mode) :=
  cs.foldlM step state

variable {tags : List Tag} {name key : String} {attributes : List Attribute}

@[simp] theorem run_nil (state : List Tag × Mode) : run state [] = some state := rfl

private theorem run_cons (state : List Tag × Mode) (c : Char) (cs : List Char) :
    run state (c :: cs) = (step state c).bind fun next => run next cs := rfl

private theorem run_append (state : List Tag × Mode) (cs ds : List Char) :
    run state (cs ++ ds) = (run state cs).bind fun next => run next ds := by
  rw [run, List.foldlM_append]
  rfl

private theorem isLetter_eq_false {c : Char} (h : c = '<' ∨ c = '>' ∨ c = '/' ∨ c = ' ' ∨ c = '=') :
    isLetter c = false := by
  rcases h with rfl | rfl | rfl | rfl | rfl <;> decide

private theorem ne_of_isLetter {c d : Char} (letter : isLetter c = true)
    (other : d = '<' ∨ d = '>' ∨ d = '/' ∨ d = ' ' ∨ d = '=') : c ≠ d := by
  rintro rfl
  rw [isLetter_eq_false other] at letter
  exact Bool.false_ne_true letter

private theorem run_letters {mode : List Char → Mode}
    (gathers : ∀ cs c, isLetter c = true → step (tags, mode cs) c = some (tags, mode (c :: cs)))
    {letters : List Char} (all : ∀ c ∈ letters, isLetter c = true) (cs : List Char) :
    run (tags, mode cs) letters = some (tags, mode (letters.reverse ++ cs)) := by
  induction letters generalizing cs with
  | nil => rfl
  | cons c letters ih =>
    rw [List.forall_mem_cons] at all
    rw [run_cons, gathers cs c all.1, Option.bind_some, ih all.2, List.reverse_cons,
      List.append_assoc, List.singleton_append]

private theorem run_escapeChar (cs : List Char) (c : Char) :
    run (tags, .value name attributes key cs) (escapeChar c) =
      some (tags, .value name attributes key (c :: cs)) := by
  unfold escapeChar
  split_ifs with amp lt gt quot apos
  · rw [amp]; rfl
  · rw [lt]; rfl
  · rw [gt]; rfl
  · rw [quot]; rfl
  · rw [apos]; rfl
  · simp [run_cons, step, quot, amp, lt]

private theorem run_escape (text cs : List Char) :
    run (tags, .value name attributes key cs) (text.flatMap escapeChar) =
      some (tags, .value name attributes key (text.reverse ++ cs)) := by
  induction text generalizing cs with
  | nil => rfl
  | cons c text ih =>
    rw [List.flatMap_cons, run_append, run_escapeChar, Option.bind_some, ih, List.reverse_cons,
      List.append_assoc, List.singleton_append]

private theorem step_name {c : Char} (h : c = '>' ∨ c = '/' ∨ c = ' ') :
    step (tags, .name name.toList.reverse) c = step (tags, .inside name []) c := by
  have plain : isLetter c = false := isLetter_eq_false (by tauto)
  simp [step, plain]

private theorem run_key (named : IsName key) (fresh : key ∉ attributes.map Prod.fst) :
    run (tags, .inside name attributes) (' ' :: (key.toList ++ ['='])) =
      some (tags, .equals name attributes key) := by
  obtain ⟨first, rest, letters⟩ := List.exists_cons_of_ne_nil named.some
  have all := named.letters
  rw [letters, List.forall_mem_cons] at all
  have blank : step (tags, .inside name attributes) ' ' = some (tags, .inside name attributes) := rfl
  have enter : step (tags, .inside name attributes) first =
      some (tags, .key name attributes [first]) := by
    simp [step, all.1]
  have gathers : ∀ cs c, isLetter c = true → step (tags, .key name attributes cs) c =
      some (tags, .key name attributes (c :: cs)) := by
    intro cs c letter
    simp [step, ne_of_isLetter letter, letter]
  have back : String.ofList (rest.reverse ++ [first]).reverse = key := by
    rw [List.reverse_append, List.reverse_reverse, List.reverse_singleton, List.singleton_append,
      ← letters, String.ofList_toList]
  have unused : (attributes.any fun b => b.1 == key) = false := by
    rw [List.any_eq_false]
    intro b mem same
    exact fresh (List.mem_map.mpr ⟨b, mem, by simpa using same⟩)
  rw [letters, run_cons, blank, Option.bind_some, List.cons_append, run_cons, enter,
    Option.bind_some, run_append, run_letters gathers all.2, Option.bind_some, run_cons]
  simp only [step, if_true, back, unused, Bool.false_eq_true, if_false, Option.bind_some, run_nil]

private theorem run_attribute {a : Attribute} (named : IsName a.1)
    (fresh : a.1 ∉ attributes.map Prod.fst) :
    run (tags, .inside name attributes) a.write.toList =
      some (tags, .inside name (a :: attributes)) := by
  obtain ⟨key, value⟩ := a
  have text : (Attribute.write (key, value)).toList =
      ' ' :: (key.toList ++ ['=']) ++ '"' :: (value.toList.flatMap escapeChar ++ ['"']) := by
    simp [Attribute.write, escape]
  have quote : step (tags, .equals name attributes key) '"' =
      some (tags, .value name attributes key []) := rfl
  have back : String.ofList (value.toList.reverse ++ []).reverse = value := by
    rw [List.append_nil, List.reverse_reverse, String.ofList_toList]
  rw [text, run_append, run_key named fresh, Option.bind_some, run_cons, quote, Option.bind_some,
    run_append, run_escape, Option.bind_some, run_cons]
  simp only [step, if_true, back, Option.bind_some, run_nil]

private theorem toList_writeAttributes (attributes : List Attribute) :
    (writeAttributes attributes).toList = attributes.flatMap fun a => a.write.toList := by
  have joined : ∀ (attributes : List Attribute) (text : String),
      (attributes.foldl (fun text a => text ++ a.write) text).toList =
        text.toList ++ attributes.flatMap fun a => a.write.toList := by
    intro attributes
    induction attributes with
    | nil => simp
    | cons a attributes ih => simp [ih]
  rw [writeAttributes, joined]
  rfl

private theorem run_attributes {more : List Attribute} (named : ∀ a ∈ more, IsName a.1)
    (keys : ((more.reverse ++ attributes).map Prod.fst).Nodup) :
    run (tags, .inside name attributes) (more.flatMap fun a => a.write.toList) =
      some (tags, .inside name (more.reverse ++ attributes)) := by
  induction more generalizing attributes with
  | nil => rfl
  | cons a more ih =>
    rw [List.forall_mem_cons] at named
    rw [List.reverse_cons, List.append_assoc, List.singleton_append] at keys ⊢
    have fresh : a.1 ∉ attributes.map Prod.fst := by
      rw [List.map_append, List.map_cons, List.nodup_append] at keys
      exact (List.nodup_cons.mp keys.2.1).1
    rw [List.flatMap_cons, run_append, run_attribute named.1 fresh, Option.bind_some,
      ih named.2 keys]

private theorem run_opened (named : IsName name) (distinct : Distinct attributes) {c : Char}
    (h : c = '>' ∨ c = '/') :
    run (tags, .opened) (name.toList ++ ((writeAttributes attributes).toList ++ [c])) =
      afterName tags name attributes.reverse c := by
  obtain ⟨first, rest, letters⟩ := List.exists_cons_of_ne_nil named.some
  have all := named.letters
  rw [letters, List.forall_mem_cons] at all
  have enter : step (tags, .opened) first = some (tags, .name [first]) := by
    simp [step, all.1, ne_of_isLetter all.1]
  have gathers : ∀ cs c, isLetter c = true → step (tags, .name cs) c =
      some (tags, .name (c :: cs)) := by
    intro cs c letter
    simp [step, letter]
  -- What follows the name ends it, whether there are attributes or not.
  obtain ⟨d, more, front, ends⟩ : ∃ d more,
      (writeAttributes attributes).toList ++ [c] = d :: more ∧ (d = '>' ∨ d = '/' ∨ d = ' ') := by
    rw [toList_writeAttributes]
    cases attributes with
    | nil => exact ⟨c, [], rfl, by tauto⟩
    | cons a attributes => exact ⟨' ', _, by simp [Attribute.write]; rfl, by tauto⟩
  have gathered : rest.reverse ++ [first] = name.toList.reverse := by
    rw [letters, List.reverse_cons]
  have plain : isLetter c = false := isLetter_eq_false (by tauto)
  have keys : ((attributes.reverse ++ []).map Prod.fst).Nodup := by
    rw [List.append_nil, List.map_reverse, List.nodup_reverse]
    exact distinct.keys
  rw [letters, List.cons_append, run_cons, enter, Option.bind_some, run_append,
    run_letters gathers all.2, Option.bind_some, gathered, front, run_cons, step_name ends,
    ← run_cons, ← front, run_append, toList_writeAttributes, run_attributes distinct.names keys,
    Option.bind_some, List.append_nil, run_cons]
  simp only [step, plain, Bool.false_eq_true, if_false, run_nil]
  exact Option.bind_fun_some _

private theorem run_start (named : IsName name) (distinct : Distinct attributes) :
    run (tags, .between) ("<" ++ name ++ writeAttributes attributes ++ ">").toList =
      some (start name attributes :: tags, .between) := by
  have text : ("<" ++ name ++ writeAttributes attributes ++ ">").toList =
      '<' :: (name.toList ++ ((writeAttributes attributes).toList ++ ['>'])) := by
    simp
  have enter : step (tags, .between) '<' = some (tags, .opened) := rfl
  rw [text, run_cons, enter, Option.bind_some, run_opened named distinct (Or.inl rfl), afterName,
    if_pos rfl, List.reverse_reverse]

private theorem run_whole (named : IsName name) (distinct : Distinct attributes) :
    run (tags, .between) ("<" ++ name ++ writeAttributes attributes ++ "/>").toList =
      some (whole name attributes :: tags, .between) := by
  have text : ("<" ++ name ++ writeAttributes attributes ++ "/>").toList =
      '<' :: ((name.toList ++ ((writeAttributes attributes).toList ++ ['/'])) ++ ['>']) := by
    simp
  have enter : step (tags, .between) '<' = some (tags, .opened) := rfl
  have slash : afterName tags name attributes.reverse '/' =
      some (tags, .slash name attributes.reverse) := rfl
  rw [text, run_cons, enter, Option.bind_some, run_append,
    run_opened named distinct (Or.inr rfl), slash, Option.bind_some, run_cons]
  simp only [step, if_true, List.reverse_reverse, Option.bind_some, run_nil]

private theorem run_stop (named : IsName name) :
    run (tags, .between) ("</" ++ name ++ ">").toList = some (stop name :: tags, .between) := by
  have text : ("</" ++ name ++ ">").toList = '<' :: '/' :: (name.toList ++ ['>']) := by simp
  have enter : step (tags, .between) '<' = some (tags, .opened) := rfl
  have slash : step (tags, .opened) '/' = some (tags, .stopName []) := rfl
  have gathers : ∀ cs c, isLetter c = true → step (tags, .stopName cs) c =
      some (tags, .stopName (c :: cs)) := by
    intro cs c letter
    simp [step, letter, ne_of_isLetter letter]
  have filled : name.toList.reverse.isEmpty = false := by
    simpa using named.some
  rw [text, run_cons, enter, Option.bind_some, run_cons, slash, Option.bind_some, run_append,
    run_letters gathers named.letters, Option.bind_some, List.append_nil, run_cons]
  simp only [step, if_true, filled, Bool.false_eq_true, if_false, List.reverse_reverse,
    String.ofList_toList, Option.bind_some, run_nil]

end Tag

namespace Element

mutual

def IsWritable : Element → Prop
  | leaf name attributes => IsName name ∧ Distinct attributes
  | branch name attributes children => IsName name ∧ Distinct attributes ∧ AreWritable children

def AreWritable : List Element → Prop
  | [] => True
  | e :: es => IsWritable e ∧ AreWritable es

end

mutual

def tags : Element → List Tag
  | leaf name attributes => [.whole name attributes]
  | branch name attributes children =>
    .start name attributes :: (tagsAll children ++ [.stop name])

def tagsAll : List Element → List Tag
  | [] => []
  | e :: es => tags e ++ tagsAll es

end

theorem areWritable_iff {es : List Element} : AreWritable es ↔ ∀ e ∈ es, IsWritable e := by
  induction es with
  | nil => simp [AreWritable]
  | cons e es ih => rw [AreWritable, ih, List.forall_mem_cons]

mutual

private theorem run_write {e : Element} (h : e.IsWritable) (tags : List Tag) :
    Tag.run (tags, .between) e.write.toList = some (e.tags.reverse ++ tags, .between) := by
  cases e with
  | leaf name attributes =>
    obtain ⟨named, distinct⟩ := h
    rw [write, Tag.run_whole named distinct]
    rfl
  | branch name attributes children =>
    obtain ⟨named, distinct, inner⟩ := h
    have text : (write (branch name attributes children)).toList =
        ("<" ++ name ++ writeAttributes attributes ++ ">").toList ++
          ((writeAll children).toList ++ ("</" ++ name ++ ">").toList) := by
      simp [write]
    rw [text, Tag.run_append, Tag.run_start named distinct, Option.bind_some, Tag.run_append,
      run_writeAll inner, Option.bind_some, Tag.run_stop named, Element.tags]
    simp

private theorem run_writeAll {es : List Element} (h : AreWritable es) (tags : List Tag) :
    Tag.run (tags, .between) (writeAll es).toList = some ((tagsAll es).reverse ++ tags, .between) := by
  cases es with
  | nil => rfl
  | cons e es =>
    rw [writeAll, String.toList_append, Tag.run_append, run_write h.1, Option.bind_some,
      run_writeAll h.2, tagsAll, List.reverse_append, List.append_assoc]

end

theorem ofText?_write {e : Element} (h : e.IsWritable) : Tag.ofText? e.write = some e.tags := by
  have runs := run_write h []
  unfold Tag.run at runs
  rw [Tag.ofText?, runs]
  simp

mutual

private theorem grow_tags (e : Element) (opened : List Open) :
    e.tags.foldlM grow ⟨opened, none⟩ = some (place e opened) := by
  cases e with
  | leaf name attributes => rfl
  | branch name attributes children =>
    have enter : grow ⟨opened, none⟩ (.start name attributes) =
        some ⟨⟨name, attributes, []⟩ :: opened, none⟩ := rfl
    rw [tags, List.foldlM_cons, enter, Option.bind_eq_bind, Option.bind_some, List.foldlM_append,
      grow_tagsAll children, Option.bind_eq_bind, Option.bind_some, List.foldlM_cons]
    simp [grow]

private theorem grow_tagsAll (es : List Element) (o : Open) (opened : List Open) :
    (tagsAll es).foldlM grow ⟨o :: opened, none⟩ =
      some ⟨{ o with children := es.reverse ++ o.children } :: opened, none⟩ := by
  cases es with
  | nil => rfl
  | cons e es =>
    have placed : place e (o :: opened) = ⟨{ o with children := e :: o.children } :: opened, none⟩ :=
      rfl
    rw [tagsAll, List.foldlM_append, grow_tags e, Option.bind_eq_bind, Option.bind_some, placed,
      grow_tagsAll es, List.reverse_cons, List.append_assoc, List.singleton_append]

end

theorem ofTags?_tags (e : Element) : ofTags? e.tags = some e := by
  rw [ofTags?, grow_tags]
  rfl

mutual

private theorem level_tags (e : Element) (level : Nat) :
    e.tags.foldlM Tag.level? level = some level := by
  cases e with
  | leaf name attributes => rfl
  | branch name attributes children =>
    have enter : Tag.level? level (.start name attributes) = some (level + 1) := rfl
    rw [tags, List.foldlM_cons, enter, Option.bind_eq_bind, Option.bind_some, List.foldlM_append,
      level_tagsAll children, Option.bind_eq_bind, Option.bind_some]
    rfl

private theorem level_tagsAll (es : List Element) (level : Nat) :
    (tagsAll es).foldlM Tag.level? level = some level := by
  cases es with
  | nil => rfl
  | cons e es =>
    rw [tagsAll, List.foldlM_append, level_tags e, Option.bind_eq_bind, Option.bind_some,
      level_tagsAll es]

end

theorem areBalanced_tags (e : Element) : Tag.areBalanced e.tags = true := by
  rw [Tag.areBalanced, level_tags]
  rfl

mutual

theorem distinct_of_mem_tags {e : Element} (h : e.IsWritable) :
    ∀ t ∈ e.tags, Distinct t.attributes := by
  cases e with
  | leaf name attributes => simpa [tags, Tag.attributes] using h.2
  | branch name attributes children =>
    have inner := distinct_of_mem_tagsAll h.2.2
    have none : Distinct [] := ⟨by simp, by simp⟩
    simp only [tags, List.mem_cons, List.mem_append, List.not_mem_nil, or_false]
    rintro t (rfl | mem | rfl)
    · exact h.2.1
    · exact inner t mem
    · exact none

private theorem distinct_of_mem_tagsAll {es : List Element} (h : AreWritable es) :
    ∀ t ∈ tagsAll es, Distinct t.attributes := by
  cases es with
  | nil => simp [tagsAll]
  | cons e es =>
    rw [tagsAll, List.forall_mem_append]
    exact ⟨distinct_of_mem_tags h.1, distinct_of_mem_tagsAll h.2⟩

end

end Element

end Texture.Xml
