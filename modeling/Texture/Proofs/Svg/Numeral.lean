/- Texture/Proofs/Svg/Numeral
   digest: The numbers in the text of a document are those of its floats, each as it is in outlines
   and with at most four places elsewhere; so they are decimals just where no float overflows. -/

import Texture.Proofs.Svg.Document
import Texture.Proofs.Svg.Number

set_option autoImplicit false
set_option relaxedAutoImplicit false

namespace Texture.Svg

open Number (FloatStyle IsDecimal floatText)
open Number.Binary (isFinite)
open Plane (Affine Box Path Point Step)
open Xml (Attribute Element Tag)

def wordKeys : List String :=
  ["xmlns", "xmlns:xlink", "id", "fill", "stroke", "stop-color", "filter", "mask", "style",
    "gradientUnits", "filterUnits", "maskUnits", "color-interpolation-filters", "in", "type",
    "result", "preserveAspectRatio", "image-rendering", "xlink:href"]

def HoldsOfAttribute (P : Bool → List Char → Prop) (a : Attribute) : Prop :=
  a.1 ∉ wordKeys → ∀ w ∈ words a.2.toList, P (a.1 == "d") w

/-- A text is a run of tags, and something holds of all their numbers. -/
def HoldsOfText (P : Bool → List Char → Prop) (text : String) : Prop :=
  ∃ tags, Tag.ofText? text = some tags ∧ ∀ t ∈ tags, ∀ a ∈ t.attributes, HoldsOfAttribute P a

/-- All numbers of a text are decimals, and no zero has a sign unless it belongs to an outline. -/
def WritesDecimals (text : String) : Prop :=
  HoldsOfText (fun outline w => IsDecimal w ∧ (outline = false → w ≠ "-0".toList)) text

/-- A float that a document writes: in an outline as it is, elsewhere with at most four places. -/
inductive Numeral where
  | plain (x : Float)
  | short (x : Float)

namespace Numeral

def isOutline : Numeral → Bool
  | plain _ => true
  | short _ => false

def text : Numeral → String
  | plain x => floatText FloatStyle.plain x
  | short x => number x

/-- A float is finite, or stays so where it is scaled to be rounded. -/
def IsTame : Numeral → Prop
  | plain x => isFinite x = true
  | short x => isFinite x = true → isFinite (x * 1e4) = true

private theorem isDecimal_text (n : Numeral) : IsDecimal n.text.toList ↔ n.IsTame := by
  cases n with
  | plain x => exact Number.floatText_isDecimal x
  | short x => exact number_isDecimal x

theorem text_ne {n : Numeral} (inside : n.isOutline = false) : n.text.toList ≠ "-0".toList := by
  cases n with
  | plain x => cases inside
  | short x => exact fun same => number_ne x (String.toList_inj.1 same)

end Numeral

/-! The floats of a document and its parts. -/

def stepFloats : Step → List Float
  | .move p | .line p => [p.x, p.y]
  | .curve p q r => [p.x, p.y, q.x, q.y, r.x, r.y]
  | .close => []

def boxFloats (b : Box) : List Float := [b.left, b.top, b.width, b.height]

def Geometry.numerals : Geometry → List Numeral
  | path p => (p.flatMap stepFloats).map .plain
  | box b => (boxFloats b).map .short
  | circle centre radius => [centre.x, centre.y, radius].map .short
  | ellipse centre radii => [centre.x, centre.y, radii.x, radii.y].map .short
  | polygon points => (points.flatMap fun p => [p.x, p.y]).map .short

def Style.numerals (s : Style) : List Numeral :=
  (s.fillOpacity.toList ++ s.strokeWidth.toList ++ s.strokeOpacity.toList).map .short

def Effects.numerals (e : Effects) : List Numeral :=
  ((e.transform.map Affine.toList).getD [] ++ e.opacity.toList).map .short

namespace Node

mutual

def numerals : Node → List Numeral
  | shape geometry style => geometry.numerals ++ style.numerals
  | group effects children => effects.numerals ++ numeralsAll children
  | image box _ _ => (boxFloats box).map .short

def numeralsAll : List Node → List Numeral
  | [] => []
  | n :: ns => numerals n ++ numeralsAll ns

end

end Node

def LinearGradient.numerals (g : LinearGradient) : List Numeral :=
  ([g.x1, g.y1, g.x2, g.y2] ++ (g.transform.map Affine.toList).getD []
    ++ g.stops.flatMap fun s => [s.offset, s.opacity]).map .short

def Primitive.floats : Primitive → List Float
  | blur _ deviation _ => [deviation]
  | matrix _ values _ => values
  | merge _ _ => []

def Def.numerals : Def → List Numeral
  | gradient g => g.numerals
  | filter _ region primitives =>
    (boxFloats region.box ++ primitives.flatMap Primitive.floats).map .short
  | mask _ region content => (boxFloats region.box).map .short ++ Node.numeralsAll content

/-- The floats of a document. The background and the view begin at zero. -/
def Document.numerals (doc : Document) : List Numeral :=
  [0.0, doc.resolution.edge].map .short
    ++ (doc.definitions.items.flatMap Def.numerals ++ Node.numeralsAll doc.content)

/-! The words of attributes with several numbers. -/

private theorem words_number (x : Float) : words (number x).toList = [(number x).toList] :=
  (isWord_number x).words

private theorem words_floatText (x : Float) : words (floatText FloatStyle.plain x).toList
    = [(floatText FloatStyle.plain x).toList] := (isWord_floatText x).words

private theorem words_numbers (xs : List Float) :
    words (numbers xs).toList = xs.map fun x => (number x).toList := by
  rw [numbers, words_intercalate, List.flatMap_map, List.map_eq_flatMap]
  simp only [words_number]

private theorem words_matrixText (m : Affine) :
    words (matrixText m).toList = m.toList.map fun x => (number x).toList := by
  have parts : (matrixText m).toList
      = "matrix".toList ++ '(' :: ((numbers m.toList).toList ++ ')' :: []) := by
    rw [matrixText]
    simp
  have name : words "matrix".toList = [] := rfl
  have nothing : words [] = [] := rfl
  rw [parts, words_append rfl, words_append rfl, words_numbers, name, nothing, List.nil_append,
    List.append_nil]

private theorem words_pointText (p : Point) :
    words (pointText p).toList = [(number p.x).toList, (number p.y).toList] := by
  have parts : (pointText p).toList = (number p.x).toList ++ ',' :: (number p.y).toList := by
    rw [pointText]
    simp
  rw [parts, words_append rfl, words_number, words_number, List.singleton_append]

private theorem words_writePoint (p : Point) : words (Step.writePoint p).toList =
    [(floatText FloatStyle.plain p.x).toList, (floatText FloatStyle.plain p.y).toList] := by
  have parts : (Step.writePoint p).toList = (floatText FloatStyle.plain p.x).toList
      ++ ',' :: (floatText FloatStyle.plain p.y).toList := by
    rw [Step.writePoint]
    simp
  rw [parts, words_append rfl, words_floatText, words_floatText, List.singleton_append]

private theorem words_step (s : Step) :
    words s.write.toList = (stepFloats s).map fun x => (floatText FloatStyle.plain x).toList := by
  cases s with
  | move p =>
    have parts : (Step.write (.move p)).toList = 'M' :: (Step.writePoint p).toList := by
      rw [Step.write]
      simp
    rw [parts, words_cons rfl, words_writePoint]
    rfl
  | line p =>
    have parts : (Step.write (.line p)).toList = 'L' :: (Step.writePoint p).toList := by
      rw [Step.write]
      simp
    rw [parts, words_cons rfl, words_writePoint]
    rfl
  | curve p q r =>
    have parts : (Step.write (.curve p q r)).toList = 'C' :: ((Step.writePoint p).toList
        ++ ' ' :: ((Step.writePoint q).toList ++ ' ' :: (Step.writePoint r).toList)) := by
      rw [Step.write]
      simp
    rw [parts, words_cons rfl, words_append rfl, words_append rfl, words_writePoint,
      words_writePoint, words_writePoint]
    rfl
  | close => rfl

private theorem words_path (p : Path) : words p.write.toList =
    (p.flatMap stepFloats).map fun x => (floatText FloatStyle.plain x).toList := by
  rw [Path.write, words_intercalate, List.flatMap_map, List.map_flatMap]
  simp only [words_step]

/-! What holds of the numbers of attributes and elements holds of their floats. -/

def HoldsOf (P : Bool → List Char → Prop) (ns : List Numeral) : Prop :=
  ∀ n ∈ ns, P n.isOutline n.text.toList

def HoldsOfAll (P : Bool → List Char → Prop) (attributes : List Attribute) : Prop :=
  ∀ a ∈ attributes, HoldsOfAttribute P a

def HoldsOfElement (P : Bool → List Char → Prop) (e : Element) : Prop :=
  ∀ t ∈ e.tags, HoldsOfAll P t.attributes

section

variable {P : Bool → List Char → Prop} {key text : String} {xs : List Float} {ns ms : List Numeral}

private theorem holdsOf_nil : HoldsOf P [] := List.forall_mem_nil _

private theorem holdsOf_append : HoldsOf P (ns ++ ms) ↔ HoldsOf P ns ∧ HoldsOf P ms :=
  List.forall_mem_append

private theorem holdsOf_cons {n : Numeral} :
    HoldsOf P (n :: ns) ↔ P n.isOutline n.text.toList ∧ HoldsOf P ns := List.forall_mem_cons

private theorem holdsOf_flatMap {α : Type} {items : List α} {f : α → List Numeral} :
    HoldsOf P (items.flatMap f) ↔ ∀ i ∈ items, HoldsOf P (f i) := List.forall_mem_flatMap

private theorem holdsOfAll_append {as bs : List Attribute} :
    HoldsOfAll P (as ++ bs) ↔ HoldsOfAll P as ∧ HoldsOfAll P bs := List.forall_mem_append

private theorem holdsOfAll_cons {a : Attribute} {as : List Attribute} :
    HoldsOfAll P (a :: as) ↔ HoldsOfAttribute P a ∧ HoldsOfAll P as := List.forall_mem_cons

private theorem holdsOfAll_nil : HoldsOfAll P [] := List.forall_mem_nil _

private theorem holdsOf_words (listed : key ∈ wordKeys) : HoldsOfAttribute P (key, text) :=
  fun other => absurd listed other

private theorem holdsOf_numbers (listed : key ∉ wordKeys ∧ (key == "d") = false)
    (parts : words text.toList = xs.map fun x => (number x).toList) :
    HoldsOfAttribute P (key, text) ↔ HoldsOf P (xs.map .short) := by
  simp only [HoldsOfAttribute, HoldsOf, parts, List.forall_mem_map, listed.2]
  exact forall_prop_of_true listed.1

private theorem holdsOf_number (listed : key ∉ wordKeys ∧ (key == "d") = false) (x : Float) :
    HoldsOfAttribute P (key, number x) ↔ P false (number x).toList := by
  rw [holdsOf_numbers listed (words_number x : _ = [x].map _), List.map_singleton]
  exact List.forall_mem_singleton

private theorem holdsOf_outline (p : Path) :
    HoldsOfAttribute P ("d", p.write) ↔ HoldsOf P ((p.flatMap stepFloats).map .plain) := by
  simp only [HoldsOfAttribute, HoldsOf, words_path, List.forall_mem_map, beq_self_eq_true]
  exact forall_prop_of_true (by decide)

private theorem holdsOf_optional (listed : key ∉ wordKeys ∧ (key == "d") = false)
    (x : Option Float) :
    HoldsOfAll P (optional key (x.map number)) ↔ HoldsOf P (x.toList.map .short) := by
  cases x with
  | none => exact iff_of_true holdsOfAll_nil holdsOf_nil
  | some x =>
    rw [Option.map_some, optional, holdsOfAll_cons, holdsOf_number listed, Option.toList_some,
      List.map_singleton, holdsOf_cons]
    exact and_congr_right fun _ => iff_of_true holdsOfAll_nil holdsOf_nil

private theorem holdsOf_map (listed : key ∉ wordKeys ∧ (key == "d") = false) (m : Option Affine) :
    HoldsOfAll P (optional key (m.map matrixText)) ↔
      HoldsOf P (((m.map Affine.toList).getD []).map .short) := by
  cases m with
  | none => exact iff_of_true holdsOfAll_nil holdsOf_nil
  | some m =>
    rw [Option.map_some, optional, holdsOfAll_cons, holdsOf_numbers listed (words_matrixText m)]
    exact and_iff_left holdsOfAll_nil

private theorem holdsOfAll_word (listed : key ∈ wordKeys) : HoldsOfAll P [(key, text)] :=
  holdsOfAll_cons.2 ⟨holdsOf_words listed, holdsOfAll_nil⟩

private theorem holdsOfAll_words (listed : key ∈ wordKeys) (text : Option String) :
    HoldsOfAll P (optional key text) := by
  cases text with
  | none => exact holdsOfAll_nil
  | some text => exact holdsOfAll_word listed

private theorem boxAttributes_hold (b : Box) :
    HoldsOfAll P (boxAttributes b) ↔ HoldsOf P ((boxFloats b).map .short) := by
  rw [boxAttributes, boxFloats]
  simp (disch := decide) only [holdsOfAll_cons, holdsOf_number, List.map_cons, holdsOf_cons]
  simp only [holdsOfAll_nil, holdsOf_nil, List.map_nil, Numeral.isOutline, Numeral.text]

private theorem Geometry.attributes_hold (g : Geometry) :
    HoldsOfAll P g.attributes ↔ HoldsOf P g.numerals := by
  cases g with
  | path p =>
    rw [attributes, holdsOfAll_cons, holdsOf_outline, numerals]
    exact and_iff_left holdsOfAll_nil
  | box b => exact boxAttributes_hold b
  | circle centre radius =>
    rw [attributes, numerals]
    simp (disch := decide) only [holdsOfAll_cons, holdsOf_number, List.map_cons, holdsOf_cons]
    simp only [holdsOfAll_nil, holdsOf_nil, List.map_nil, Numeral.isOutline, Numeral.text]
  | ellipse centre radii =>
    rw [attributes, numerals]
    simp (disch := decide) only [holdsOfAll_cons, holdsOf_number, List.map_cons, holdsOf_cons]
    simp only [holdsOfAll_nil, holdsOf_nil, List.map_nil, Numeral.isOutline, Numeral.text]
  | polygon points =>
    have parts : words (" ".intercalate (points.map pointText)).toList
        = (points.flatMap fun p => [p.x, p.y]).map fun x => (number x).toList := by
      rw [words_intercalate, List.flatMap_map, List.map_flatMap]
      simp only [words_pointText, List.map_cons, List.map_nil]
    rw [attributes, holdsOfAll_cons, holdsOf_numbers (by decide) parts, numerals]
    exact and_iff_left holdsOfAll_nil

private theorem Style.attributes_hold (s : Style) :
    HoldsOfAll P s.attributes ↔ HoldsOf P s.numerals := by
  rw [attributes, numerals]
  simp (disch := decide) only [holdsOfAll_append, holdsOf_optional, List.map_append,
    holdsOf_append, holdsOfAll_word, true_and, and_true]

private theorem Effects.attributes_hold (e : Effects) :
    HoldsOfAll P e.attributes ↔ HoldsOf P e.numerals := by
  rw [attributes, numerals]
  simp (disch := decide) only [holdsOfAll_append, holdsOf_optional, holdsOf_map, holdsOfAll_words,
    List.map_append, holdsOf_append, and_true]

private theorem Region.attributes_hold (r : Region) {kind : String}
    (listed : kind ++ "Units" ∈ wordKeys) :
    HoldsOfAll P (r.attributes kind) ↔ HoldsOf P ((boxFloats r.box).map .short) := by
  rw [attributes, holdsOfAll_cons, boxAttributes_hold]
  exact and_iff_right (holdsOf_words listed)

private theorem imageAttributes_hold (box : Box) (address : String) (rendering : Rendering) :
    HoldsOfAll P (imageAttributes box address rendering) ↔
      HoldsOf P ((boxFloats box).map .short) := by
  have hint : HoldsOfAll P
      (if rendering = .pixelated then [("image-rendering", "optimizeSpeed")] else []) := by
    split
    · exact holdsOfAll_word (by decide)
    · exact holdsOfAll_nil
  rw [imageAttributes, holdsOfAll_append, holdsOfAll_append, holdsOfAll_append,
    boxAttributes_hold, and_assoc, and_assoc]
  exact and_iff_left ⟨holdsOfAll_word (by decide), hint, holdsOfAll_word (by decide)⟩

private theorem holdsOf_leaf {name : String} {as : List Attribute} :
    HoldsOfElement P (.leaf name as) ↔ HoldsOfAll P as := List.forall_mem_singleton

private theorem holdsOf_branch {name : String} {as : List Attribute} {es : List Element} :
    HoldsOfElement P (.branch name as es) ↔ HoldsOfAll P as ∧ ∀ e ∈ es, HoldsOfElement P e := by
  have inner : (∀ t ∈ Element.tagsAll es, HoldsOfAll P t.attributes) ↔
      ∀ e ∈ es, HoldsOfElement P e := by
    induction es with
    | nil => simp [Element.tagsAll]
    | cons e es ih =>
      rw [Element.tagsAll, List.forall_mem_append, List.forall_mem_cons, ih]
      rfl
  rw [HoldsOfElement, Element.tags, List.forall_mem_cons, List.forall_mem_append, inner,
    List.forall_mem_singleton]
  exact and_congr_right fun _ => and_iff_left holdsOfAll_nil

mutual

private theorem Node.toXml_holds (n : Node) : HoldsOfElement P n.toXml ↔ HoldsOf P n.numerals := by
  cases n with
  | shape geometry style =>
    rw [Node.toXml, holdsOf_leaf, holdsOfAll_append, geometry.attributes_hold,
      style.attributes_hold, Node.numerals, holdsOf_append]
  | group effects children =>
    rw [Node.toXml, holdsOf_branch, effects.attributes_hold, Node.toXmlAll_hold children,
      Node.numerals, holdsOf_append]
  | image box address rendering =>
    rw [Node.toXml, holdsOf_leaf, imageAttributes_hold, Node.numerals]

private theorem Node.toXmlAll_hold (ns : List Node) :
    (∀ e ∈ toXmlAll ns, HoldsOfElement P e) ↔ HoldsOf P (numeralsAll ns) := by
  cases ns with
  | nil => exact iff_of_true (List.forall_mem_nil _) holdsOf_nil
  | cons n ns =>
    rw [toXmlAll, List.forall_mem_cons, Node.toXml_holds n, Node.toXmlAll_hold ns, numeralsAll,
      holdsOf_append]

end

private theorem Stop.toXml_holds (s : Stop) :
    HoldsOfElement P s.toXml ↔ HoldsOf P ([s.offset, s.opacity].map .short) := by
  rw [toXml, holdsOf_leaf]
  simp (disch := decide) only [holdsOfAll_cons, holdsOf_number, holdsOf_words, List.map_cons,
    holdsOf_cons, true_and]
  simp only [holdsOfAll_nil, holdsOf_nil, List.map_nil, Numeral.isOutline, Numeral.text]

private theorem LinearGradient.toXml_holds (g : LinearGradient) :
    HoldsOfElement P g.toXml ↔ HoldsOf P g.numerals := by
  rw [toXml, holdsOf_branch, holdsOfAll_append, holdsOf_map (by decide), numerals,
    List.map_append, List.map_append, holdsOf_append, holdsOf_append, List.forall_mem_map,
    List.map_flatMap, holdsOf_flatMap]
  simp (disch := decide) only [holdsOfAll_cons, holdsOf_number, holdsOf_words, List.map_cons,
    holdsOf_cons, true_and, Stop.toXml_holds]
  simp only [holdsOfAll_nil, holdsOf_nil, List.map_nil, Numeral.isOutline, Numeral.text]

private theorem Primitive.toXml_holds (p : Primitive) :
    HoldsOfElement P p.toXml ↔ HoldsOf P (p.floats.map .short) := by
  cases p with
  | blur input deviation result =>
    rw [toXml, holdsOf_leaf]
    simp (disch := decide) only [holdsOfAll_cons, holdsOf_number, holdsOf_words, floats,
      List.map_cons, holdsOf_cons, true_and]
    simp only [holdsOfAll_nil, holdsOf_nil, List.map_nil, Numeral.isOutline, Numeral.text]
  | matrix input values result =>
    rw [toXml, holdsOf_leaf]
    simp (disch := decide) only [holdsOfAll_cons, holdsOf_words, floats, true_and, and_true,
      holdsOfAll_nil]
    exact holdsOf_numbers (by decide) (words_numbers values)
  | merge inputs result =>
    rw [toXml, holdsOf_branch, List.forall_mem_map]
    refine iff_of_true ⟨holdsOfAll_word (by decide), fun input _ => ?_⟩ holdsOf_nil
    exact holdsOf_leaf.2 (holdsOfAll_word (by decide))

private theorem Def.toXml_holds (d : Def) : HoldsOfElement P d.toXml ↔ HoldsOf P d.numerals := by
  cases d with
  | gradient g => exact g.toXml_holds
  | filter id region primitives =>
    rw [toXml, holdsOf_branch, holdsOfAll_append, holdsOfAll_append,
      region.attributes_hold (by decide), List.forall_mem_map, numerals, List.map_append,
      List.map_flatMap, holdsOf_append, holdsOf_flatMap]
    simp (disch := decide) only [holdsOfAll_word, Primitive.toXml_holds, true_and, and_true]
  | mask id region content =>
    rw [toXml, holdsOf_branch, holdsOfAll_append, region.attributes_hold (by decide),
      Node.toXmlAll_hold, numerals, holdsOf_append]
    simp (disch := decide) only [holdsOfAll_word, true_and]

private theorem Document.viewBox_holds (x : Float) :
    HoldsOfAttribute P ("viewBox", "0 0 " ++ number x ++ " " ++ number x) ↔
      HoldsOf P ([0.0, x].map .short) := by
  have split : ("0 0 " ++ number x ++ " " ++ number x).toList = (number 0.0).toList ++ ' ' ::
      ((number 0.0).toList ++ ' ' :: ((number x).toList ++ ' ' :: (number x).toList)) := by
    rw [number_zero]
    simp
  have parts : words ("0 0 " ++ number x ++ " " ++ number x).toList
      = [0.0, 0.0, x, x].map fun y => (number y).toList := by
    rw [split, words_append rfl, words_append rfl, words_append rfl]
    simp only [words_number, List.map_cons, List.map_nil, List.cons_append, List.nil_append]
  rw [holdsOf_numbers (by decide) parts]
  simp only [List.map_cons, List.map_nil, holdsOf_cons]
  exact ⟨fun ⟨zero, _, edge, _, rest⟩ => ⟨zero, edge, rest⟩,
    fun ⟨zero, edge, rest⟩ => ⟨zero, zero, edge, edge, rest⟩⟩

private theorem Document.backgroundXml_holds (x : Float) (c : Color) :
    HoldsOfElement P (backgroundXml (number x) c) ↔ HoldsOf P ([0.0, x].map .short) := by
  rw [backgroundXml, holdsOf_leaf, ← number_zero]
  simp (disch := decide) only [holdsOfAll_cons, holdsOf_number, holdsOf_words, holdsOfAll_nil,
    List.map_cons, List.map_nil, holdsOf_cons, holdsOf_nil, and_true, Numeral.isOutline,
    Numeral.text]
  exact ⟨fun ⟨zero, _, edge, _⟩ => ⟨zero, edge⟩, fun ⟨zero, edge⟩ => ⟨zero, zero, edge, edge⟩⟩

private theorem Document.toXml_holds (doc : Document) :
    HoldsOfElement P doc.toXml ↔ HoldsOf P doc.numerals := by
  obtain ⟨resolution, definitions, background, content⟩ := doc
  have box : ∀ x : Float, HoldsOf P ([0.0, x].map .short) →
      ∀ e ∈ (background.map (backgroundXml (number x))).toList, HoldsOfElement P e := by
    intro x holds
    cases background with
    | none => exact List.forall_mem_nil _
    | some c => exact List.forall_mem_singleton.2 ((backgroundXml_holds x c).2 holds)
  rw [toXml, numerals, holdsOf_branch, List.forall_mem_append, List.forall_mem_append,
    List.forall_mem_singleton, List.forall_mem_singleton, holdsOf_branch, holdsOf_branch,
    List.forall_mem_map, Node.toXmlAll_hold, holdsOf_append, holdsOf_append, holdsOf_flatMap]
  simp (disch := decide) only [holdsOfAll_cons, holdsOf_number, holdsOf_words, holdsOfAll_nil,
    viewBox_holds, Def.toXml_holds, true_and, and_true]
  constructor
  · rintro ⟨⟨view, -⟩, ⟨defs, -⟩, shown⟩
    exact ⟨view, defs, shown⟩
  · rintro ⟨view, defs, shown⟩
    have edge := (holdsOf_cons.1 (holdsOf_cons.1 view).2).1
    exact ⟨⟨view, edge, edge⟩, ⟨defs, box _ view⟩, shown⟩

/-- What holds of the numbers in the text of a document is what holds of its floats as they are
written. -/
theorem Document.write_holds (doc : Document) :
    HoldsOfText P doc.write ↔ HoldsOf P doc.numerals := by
  have read := Element.ofText?_write doc.toXml_isWritable
  rw [← doc.toXml_holds]
  constructor
  · rintro ⟨tags, read', holds⟩
    rw [write, read, Option.some.injEq] at read'
    rwa [← read'] at holds
  · exact fun holds => ⟨_, read, holds⟩

end

/-- The text of a document holds decimals only just if each of its floats is finite in an outline
and, if it is finite, stays so when it is scaled to be rounded elsewhere. -/
theorem Document.writesDecimals_iff (doc : Document) :
    WritesDecimals doc.write ↔ ∀ n ∈ doc.numerals, n.IsTame := by
  rw [WritesDecimals, doc.write_holds]
  exact forall₂_congr fun n _ => (and_iff_left Numeral.text_ne).trans n.isDecimal_text

end Texture.Svg
