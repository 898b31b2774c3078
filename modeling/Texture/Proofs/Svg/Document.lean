/- Texture/Proofs/Svg/Document
   digest: The text of a document is read as the tree of the document, and each id, reference, name
   and address in it as the text that was meant. -/

import Texture.Proofs.Xml.Reader
import Texture.Svg.Document

set_option autoImplicit false
set_option relaxedAutoImplicit false

namespace Texture

open Xml (Attribute Distinct Element IsName Tag)

namespace Svg

/-- An element stands for a node: it has the name of its kind, its references and its address, and
the elements of its children in their order. -/
inductive Node.Depicted : Node → Element → Prop
  | shape {geometry : Geometry} {style : Style} {attributes : List Attribute}
      (fill : ∀ id, style.fill = .reference id →
        attributes.lookup "fill" = some ("url(#" ++ id ++ ")"))
      (stroke : ∀ id, style.stroke = .reference id →
        attributes.lookup "stroke" = some ("url(#" ++ id ++ ")")) :
      Depicted (.shape geometry style) (.leaf geometry.tag attributes)
  | group {effects : Effects} {children : List Node} {attributes : List Attribute}
      {es : List Element}
      (filter : attributes.lookup "filter" = effects.filter.map fun id => "url(#" ++ id ++ ")")
      (mask : attributes.lookup "mask" = effects.mask.map fun id => "url(#" ++ id ++ ")")
      (inner : List.Forall₂ Depicted children es) :
      Depicted (.group effects children) (.branch "g" attributes es)
  | image {box : Plane.Box} {address : String} {rendering : Rendering}
      {attributes : List Attribute} (held : attributes.lookup "xlink:href" = some address) :
      Depicted (.image box address rendering) (.leaf "image" attributes)

inductive Primitive.Depicted : Primitive → Element → Prop
  | blur {input result : String} {deviation : Float} {attributes : List Attribute}
      (source : attributes.lookup "in" = some input)
      (named : attributes.lookup "result" = some result) :
      Depicted (.blur input deviation result) (.leaf "feGaussianBlur" attributes)
  | matrix {input result : String} {values : List Float} {attributes : List Attribute}
      (source : attributes.lookup "in" = some input)
      (named : attributes.lookup "result" = some result) :
      Depicted (.matrix input values result) (.leaf "feColorMatrix" attributes)
  | merge {inputs : List String} {result : String} {attributes : List Attribute}
      {es : List Element} (named : attributes.lookup "result" = some result)
      (sources : List.Forall₂ (fun input e => ∃ inner,
        e = Element.leaf "feMergeNode" inner ∧ inner.lookup "in" = some input) inputs es) :
      Depicted (.merge inputs result) (.branch "feMerge" attributes es)

inductive Def.Depicted : Def → Element → Prop
  | gradient {g : LinearGradient} {attributes : List Attribute} {es : List Element}
      (held : attributes.lookup "id" = some g.id)
      (stops : List.Forall₂ (fun _ e => ∃ inner, e = Element.leaf "stop" inner) g.stops es) :
      Depicted (.gradient g) (.branch "linearGradient" attributes es)
  | filter {id : String} {region : Region} {primitives : List Primitive}
      {attributes : List Attribute} {es : List Element} (held : attributes.lookup "id" = some id)
      (inner : List.Forall₂ Primitive.Depicted primitives es) :
      Depicted (.filter id region primitives) (.branch "filter" attributes es)
  | mask {id : String} {region : Region} {content : List Node}
      {attributes : List Attribute} {es : List Element} (held : attributes.lookup "id" = some id)
      (inner : List.Forall₂ Node.Depicted content es) :
      Depicted (.mask id region content) (.branch "mask" attributes es)

/-- An element stands for a document: its definitions in order inside of one element, then the box
of the background if there is one, then its content in order inside of one group. -/
inductive Document.Depicted (doc : Document) : Element → Prop
  | intro {attributes : List Attribute} {definitions background content : List Element}
      (defs : List.Forall₂ Def.Depicted doc.definitions.items definitions)
      (box : List.Forall₂ (fun c e => ∃ inner,
        e = Element.leaf "rect" inner ∧ inner.lookup "fill" = some (Color.hex c))
        doc.background.toList background)
      (shown : List.Forall₂ Node.Depicted doc.content content) :
      Depicted doc (.branch "svg" attributes
        ([.branch "defs" [] definitions] ++ background ++ [.branch "g" [] content]))

/-! The attributes of all elements have distinct keys, from lists that are fixed for each kind. -/

private theorem optional_keys (key : String) (text : Option String) :
    ((optional key text).map Prod.fst).Sublist [key] := by
  cases text with
  | none => exact List.nil_sublist _
  | some text => exact List.Sublist.refl _

def styleKeys : List String := ["fill", "fill-opacity", "stroke", "stroke-width", "stroke-opacity"]

private theorem Style.attributes_keys (s : Style) :
    (s.attributes.map Prod.fst).Sublist styleKeys := by
  simp only [Style.attributes, List.map_append]
  exact ((((List.Sublist.refl _).append (optional_keys _ _)).append (List.Sublist.refl _)).append
    (optional_keys _ _)).append (optional_keys _ _)

def Geometry.keys : Geometry → List String
  | path _ => ["d"]
  | box _ => ["x", "y", "width", "height"]
  | circle _ _ => ["cx", "cy", "r"]
  | ellipse _ _ => ["cx", "cy", "rx", "ry"]
  | polygon _ => ["points"]

private theorem shape_distinct (geometry : Geometry) (style : Style) :
    Distinct (geometry.attributes ++ style.attributes) := by
  have keys : ((geometry.attributes ++ style.attributes).map Prod.fst).Sublist
      (geometry.keys ++ styleKeys) := by
    have own : geometry.attributes.map Prod.fst = geometry.keys := by cases geometry <;> rfl
    rw [List.map_append, own]
    exact (List.Sublist.refl _).append style.attributes_keys
  refine .of_keys _ ?_ keys
  cases geometry <;> simp only [Geometry.keys] <;> decide

private theorem Effects.attributes_distinct (e : Effects) : Distinct e.attributes := by
  refine .of_keys ["transform", "opacity", "filter", "mask", "style"] (by decide) ?_
  simp only [Effects.attributes, List.map_append]
  exact ((((optional_keys _ _).append (optional_keys _ _)).append (optional_keys _ _)).append
    (optional_keys _ _)).append (optional_keys _ _)

private theorem imageAttributes_distinct (box : Plane.Box) (address : String)
    (rendering : Rendering) : Distinct (imageAttributes box address rendering) := by
  refine .of_keys ["x", "y", "width", "height", "preserveAspectRatio", "image-rendering",
    "xlink:href"] (by decide) ?_
  have smooth : ["x", "y", "width", "height", "preserveAspectRatio", "xlink:href"].Sublist
      ["x", "y", "width", "height", "preserveAspectRatio", "image-rendering", "xlink:href"] := by
    decide
  cases rendering with
  | smooth => exact smooth
  | pixelated => exact List.Sublist.refl _

private theorem LinearGradient.toXml_isWritable (g : LinearGradient) : g.toXml.IsWritable := by
  refine ⟨by decide, .of_keys ["id", "gradientUnits", "x1", "y1", "x2", "y2", "gradientTransform"]
    (by decide) ?_, Element.areWritable_iff.mpr ?_⟩
  · rw [List.map_append]
    exact (List.Sublist.refl ["id", "gradientUnits", "x1", "y1", "x2", "y2"]).append
      (optional_keys _ _)
  · rw [List.forall_mem_map]
    exact fun stop _ => ⟨by decide, .of_keys ["offset", "stop-color", "stop-opacity"] (by decide)
      (List.Sublist.refl _)⟩

private theorem Primitive.toXml_isWritable (p : Primitive) : p.toXml.IsWritable := by
  cases p with
  | blur input deviation result =>
    exact ⟨by decide, .of_keys ["in", "stdDeviation", "result"] (by decide) (List.Sublist.refl _)⟩
  | matrix input values result =>
    exact ⟨by decide, .of_keys ["in", "type", "values", "result"] (by decide)
      (List.Sublist.refl _)⟩
  | merge inputs result =>
    refine ⟨by decide, .of_keys ["result"] (by decide) (List.Sublist.refl _), ?_⟩
    rw [Element.areWritable_iff, List.forall_mem_map]
    exact fun input _ => ⟨by decide, .of_keys ["in"] (by decide) (List.Sublist.refl _)⟩

mutual

theorem Node.toXml_isWritable (n : Node) : n.toXml.IsWritable := by
  cases n with
  | shape geometry style =>
    have named : IsName geometry.tag := by cases geometry <;> simp only [Geometry.tag] <;> decide
    exact ⟨named, shape_distinct geometry style⟩
  | group effects children =>
    exact ⟨by decide, effects.attributes_distinct, toXmlAll_areWritable children⟩
  | image box address rendering =>
    exact ⟨by decide, imageAttributes_distinct box address rendering⟩

private theorem Node.toXmlAll_areWritable (ns : List Node) : Element.AreWritable (toXmlAll ns) := by
  cases ns with
  | nil => trivial
  | cons n ns => exact ⟨toXml_isWritable n, toXmlAll_areWritable ns⟩

end

private theorem Def.toXml_isWritable (d : Def) : d.toXml.IsWritable := by
  cases d with
  | gradient g => exact g.toXml_isWritable
  | filter id region primitives =>
    refine ⟨by decide, .of_keys ["id", "filterUnits", "x", "y", "width", "height",
      "color-interpolation-filters"] (by decide) (List.Sublist.refl _), ?_⟩
    rw [Element.areWritable_iff, List.forall_mem_map]
    exact fun p _ => p.toXml_isWritable
  | mask id region content =>
    exact ⟨by decide, .of_keys ["id", "maskUnits", "x", "y", "width", "height"] (by decide)
      (List.Sublist.refl _), Node.toXmlAll_areWritable content⟩

theorem Document.toXml_isWritable (doc : Document) : doc.toXml.IsWritable := by
  have plain : Distinct [] := ⟨by simp, by simp⟩
  refine ⟨by decide, .of_keys ["xmlns", "xmlns:xlink", "viewBox", "width", "height"] (by decide)
    (List.Sublist.refl _), ?_⟩
  rw [Element.areWritable_iff, List.forall_mem_append, List.forall_mem_append,
    List.forall_mem_singleton, List.forall_mem_singleton]
  refine ⟨⟨⟨by decide, plain, ?_⟩, ?_⟩, by decide, plain, Node.toXmlAll_areWritable doc.content⟩
  · rw [Element.areWritable_iff, List.forall_mem_map]
    exact fun d _ => d.toXml_isWritable
  · cases doc.background with
    | none => simp
    | some c =>
      rintro e (_ | ⟨_, ⟨⟩⟩)
      exact ⟨by decide, .of_keys ["x", "y", "width", "height", "fill"] (by decide)
        (List.Sublist.refl _)⟩

/-! What the elements hold under their keys. -/

private theorem lookup_optional (key other : String) (text : Option String) :
    (optional key text).lookup other = if other = key then text else none := by
  cases text with
  | none => simp [optional]
  | some text => by_cases same : other = key <;> simp [optional, same]

private theorem Style.lookup_paint (s : Style) :
    s.attributes.lookup "fill" = some s.fill.text ∧
      s.attributes.lookup "stroke" = some s.stroke.text := by
  constructor
  · rfl
  · simp [Style.attributes, List.lookup_append, List.lookup_cons, lookup_optional]

private theorem Geometry.lookup_paint (g : Geometry) :
    g.attributes.lookup "fill" = none ∧ g.attributes.lookup "stroke" = none := by
  cases g <;> exact ⟨rfl, rfl⟩

private theorem Effects.lookup_references (e : Effects) :
    e.attributes.lookup "filter" = e.filter.map referenceText ∧
      e.attributes.lookup "mask" = e.mask.map referenceText := by
  constructor <;> simp [Effects.attributes, List.lookup_append, lookup_optional]

private theorem lookup_address (box : Plane.Box) (address : String) (rendering : Rendering) :
    (imageAttributes box address rendering).lookup "xlink:href" = some address := by
  cases rendering <;> rfl

mutual

private theorem Node.toXml_depicted (n : Node) : n.Depicted n.toXml := by
  cases n with
  | shape geometry style =>
    obtain ⟨fill, stroke⟩ := geometry.lookup_paint
    obtain ⟨fill', stroke'⟩ := style.lookup_paint
    refine .shape ?_ ?_
    · intro id same
      rw [List.lookup_append, fill, fill', same]
      rfl
    · intro id same
      rw [List.lookup_append, stroke, stroke', same]
      rfl
  | group effects children =>
    obtain ⟨filter, mask⟩ := effects.lookup_references
    exact .group filter mask (toXmlAll_depicted children)
  | image box address rendering => exact .image (lookup_address box address rendering)

private theorem Node.toXmlAll_depicted (ns : List Node) :
    List.Forall₂ Depicted ns (toXmlAll ns) := by
  cases ns with
  | nil => exact .nil
  | cons n ns => exact .cons (toXml_depicted n) (toXmlAll_depicted ns)

end

private theorem Primitive.toXml_depicted (p : Primitive) : p.Depicted p.toXml := by
  cases p with
  | blur input deviation result => exact .blur rfl rfl
  | matrix input values result => exact .matrix rfl rfl
  | merge inputs result =>
    exact .merge rfl (List.forall₂_map_right_iff.mpr (List.forall₂_same.mpr fun _ _ => ⟨_, rfl, rfl⟩))

private theorem Def.toXml_depicted (d : Def) : d.Depicted d.toXml := by
  cases d with
  | gradient g =>
    exact .gradient rfl (List.forall₂_map_right_iff.mpr (List.forall₂_same.mpr fun _ _ => ⟨_, rfl⟩))
  | filter id region primitives =>
    exact .filter rfl (List.forall₂_map_right_iff.mpr
      (List.forall₂_same.mpr fun p _ => p.toXml_depicted))
  | mask id region content => exact .mask rfl (Node.toXmlAll_depicted content)

private theorem Document.toXml_depicted (doc : Document) : doc.Depicted doc.toXml := by
  refine .intro ?_ ?_ (Node.toXmlAll_depicted doc.content)
  · exact List.forall₂_map_right_iff.mpr (List.forall₂_same.mpr fun d _ => d.toXml_depicted)
  · cases doc.background with
    | none => exact .nil
    | some c => exact .cons ⟨_, rfl, rfl⟩ .nil

/-- Whatever texts a document holds, its own text is a run of tags with quoted attributes, none of
them repeated in a tag, and nothing between the tags. The tags close just what they open, and they
make up the tree of the document, in which every id, reference, name and address is the one that the
document holds. -/
theorem Document.write_depicted (doc : Document) :
    ∃ tags, Tag.ofText? doc.write = some tags ∧ Tag.areBalanced tags = true ∧
      (∀ t ∈ tags, (t.attributes.map Prod.fst).Nodup) ∧
      Element.ofTags? tags = some doc.toXml ∧ doc.Depicted doc.toXml := by
  have writable := doc.toXml_isWritable
  exact ⟨doc.toXml.tags, Element.ofText?_write writable, doc.toXml.areBalanced_tags,
    fun t mem => (Element.distinct_of_mem_tags writable t mem).keys, doc.toXml.ofTags?_tags,
    doc.toXml_depicted⟩

end Svg

end Texture
