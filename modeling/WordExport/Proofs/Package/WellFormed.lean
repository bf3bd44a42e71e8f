import WordExport.Package
import WordExport.Proofs.Package.Tags

set_option autoImplicit false

namespace WordExport

open Xml (Node)

theorem relationshipMarkup_plain (index : Nat) (relationship : Relationship) :
    Plain [relationship.markup index] := by
  obtain ⟨kind, target⟩ := relationship
  cases kind <;> rfl

theorem relationshipsPart_plain (relationships : List Relationship) :
    Plain [relationshipsPart relationships] := by
  refine .element rfl (.all fun node mem => ?_)
  obtain ⟨index, _, rfl⟩ := List.mem_mapIdx.mp mem
  exact relationshipMarkup_plain index _

theorem contentTypesPart_plain : Plain [contentTypesPart] :=
  rfl

theorem settingsPart_plain (hasBackground : Bool) : Plain [settingsPart hasBackground] := by
  cases hasBackground <;> rfl

theorem coreProperties_plain (properties : CoreProperties) : Plain [properties.part] := by
  have field (name : String) (plain : isPlainTag ⟨name, []⟩ = true) (value : Option String) :
      Plain (optionalLeaf value fun text => .element name [] [.text text]) :=
    .optional fun _ => .element plain rfl
  have topic := (field "dc:title" rfl properties.title).append
    (field "dc:subject" rfl properties.subject)
  have origin := (topic.append (field "dc:creator" rfl properties.creator)).append
    (field "cp:keywords" rfl properties.keywords)
  have history := (origin.append (field "dc:description" rfl properties.description)).append
    (field "cp:lastModifiedBy" rfl properties.lastModifiedBy)
  exact .element rfl (history.append (field "cp:revision" rfl (properties.revision.map toString)))

theorem levelMarkup_plain (level : NumberingLevel) : Plain [level.markup] := by
  obtain ⟨_, format, _, _, indent⟩ := level
  cases indent with
  | none => rfl
  | some indent => cases format <;> rfl

theorem abstractNumbering_plain (id : Nat) (levels : List NumberingLevel) :
    Plain [abstractNumbering id levels] := by
  have kind : Plain [.leaf "w:multiLevelType" [("w:val", "hybridMultilevel")]] := rfl
  refine .element rfl (kind.cons (.all fun node mem => ?_))
  obtain ⟨level, _, rfl⟩ := List.mem_map.mp mem
  exact levelMarkup_plain level

theorem numberingPart_plain (definitions : List NumberingDefinition) :
    Plain [numberingPart definitions] := by
  refine .element rfl (.all fun node mem => ?_)
  rcases List.mem_append.mp mem with definition | numbered
  · rcases List.mem_cons.mp definition with rfl | custom
    · exact abstractNumbering_plain _ _
    · obtain ⟨index, _, rfl⟩ := List.mem_mapIdx.mp custom
      exact abstractNumbering_plain _ _
  · rcases List.mem_cons.mp numbered with rfl | custom
    · rfl
    · obtain ⟨index, _, rfl⟩ := List.mem_mapIdx.mp custom
      rfl

theorem sizeMarkup_plain (size : Nat) : Plain (sizeMarkup size) :=
  rfl

theorem styleRuns_plain (style : ParagraphStyle) : Plain style.runProperties := by
  have font (font : String) : Plain [.leaf "w:rFonts" [("w:ascii", font), ("w:hAnsi", font),
      ("w:cs", font)]] := rfl
  have bold : Plain [.leaf "w:b", .leaf "w:bCs"] := rfl
  have italic : Plain [.leaf "w:i", .leaf "w:iCs"] := rfl
  have color (color : String) : Plain [valueLeaf "w:color" color] := rfl
  exact ((((Checked.optional font).append (.ite bold .nil)).append (.ite italic .nil)).append
    (.optional color)).append (.mapped sizeMarkup_plain)

theorem styleMarkup_plain (style : ParagraphStyle) : Plain [style.markup] := by
  have based (id : String) : Plain [valueLeaf "w:basedOn" id] := rfl
  have next (id : String) : Plain [valueLeaf "w:next" id] := rfl
  have outlined (level : Nat) : Plain [.element "w:pPr" [] [
      valueLeaf "w:outlineLvl" (toString level)]] := rfl
  have named : Plain [valueLeaf "w:name" style.name] := rfl
  have shown : Plain [.leaf "w:qFormat"] := rfl
  have runs : Plain (Xml.elementUnlessEmpty "w:rPr" style.runProperties) :=
    .unlessEmpty rfl (styleRuns_plain style)
  exact .element rfl (((((named.append (.optional based)).append (.optional next)).append
    shown).append (.optional outlined)).append runs)

theorem defaultProperties_plain (sheet : StyleSheet) : Plain [defaultProperties sheet] := by
  have font (font : String) : Plain [.leaf "w:rFonts" [("w:ascii", font), ("w:eastAsia", font),
      ("w:hAnsi", font), ("w:cs", font)]] := rfl
  have runs : Plain [.element "w:rPr" [] (optionalLeaf sheet.defaultFont (fun font =>
      .leaf "w:rFonts" [("w:ascii", font), ("w:eastAsia", font), ("w:hAnsi", font),
        ("w:cs", font)]) ++ (sheet.defaultSize.map sizeMarkup).getD [])] :=
    .element rfl ((Checked.optional font).append (.mapped sizeMarkup_plain))
  have paragraphs : Plain [.leaf "w:pPrDefault"] := rfl
  exact .element rfl ((Checked.element rfl runs).cons paragraphs)

theorem stylesPart_plain (sheet : StyleSheet) : Plain [stylesPart sheet] := by
  have normal : Plain [normalStyle] := rfl
  have custom : Plain ((paragraphStyles sheet.paragraphStyles).map ParagraphStyle.markup) := by
    refine .all fun node mem => ?_
    obtain ⟨style, _, rfl⟩ := List.mem_map.mp mem
    exact styleMarkup_plain style
  have characters : Plain [
      characterStyle "Hyperlink" "Hyperlink"
        [valueLeaf "w:color" "0563C1", valueLeaf "w:u" "single"],
      characterStyle "FootnoteReference" "footnote reference"
        [valueLeaf "w:vertAlign" "superscript"]] := rfl
  exact .element rfl ((((defaultProperties_plain sheet).cons normal).append custom).append characters)

/-- What is no file of an image is the text of an XML document. -/
def Part.IsWellFormed : Part → Prop
  | ⟨_, .markup root⟩ => Xml.IsDocument (Xml.print root)
  | ⟨_, .media _⟩ => True

theorem Bears.wellFormed {notes : List Xml.Tag} {root : Node} (borne : Bears notes [root])
    (tagged : root.tags ≠ []) (name : String) : Part.IsWellFormed ⟨name, .markup root⟩ :=
  Xml.isDocument_print tagged borne.sound_tags

theorem Plain.wellFormed {root : Node} (plain : Plain [root]) (tagged : root.tags ≠ [])
    (name : String) : Part.IsWellFormed ⟨name, .markup root⟩ :=
  plain.bears.wellFormed tagged name

theorem bodyPart_wellFormed (document : Document) (name : String) :
    Yields (fun root => Part.IsWellFormed ⟨name, .markup root⟩) (bodyPart document) :=
  fun ledger => (bodyPart_bears document ledger).wellFormed (List.cons_ne_nil _ _) name

theorem footnotesPart_wellFormed (document : Document) (name : String) :
    Yields (fun root => Part.IsWellFormed ⟨name, .markup root⟩) (footnotesPart document) :=
  fun ledger => (footnotesPart_bears document ledger).wellFormed (List.cons_ne_nil _ _) name

theorem relationships_wellFormed (relationships : List Relationship) (name : String) :
    Part.IsWellFormed ⟨name, .markup (relationshipsPart relationships)⟩ :=
  (relationshipsPart_plain relationships).wellFormed (List.cons_ne_nil _ _) name

theorem parts_wellFormed (document : Document) : ∀ part ∈ document.parts, part.IsWellFormed := by
  refine List.forall_mem_append.mpr ⟨List.forall_mem_append.mpr ⟨?_, ?_⟩, ?_⟩
  · simp only [List.forall_mem_cons]
    refine ⟨contentTypesPart_plain.wellFormed (List.cons_ne_nil _ _) _,
      relationships_wellFormed _ _,
      (coreProperties_plain _).wellFormed (List.cons_ne_nil _ _) _,
      bodyPart_wellFormed document _ _,
      relationships_wellFormed _ _,
      (stylesPart_plain _).wellFormed (List.cons_ne_nil _ _) _,
      (numberingPart_plain _).wellFormed (List.cons_ne_nil _ _) _,
      footnotesPart_wellFormed document _ _,
      (settingsPart_plain _).wellFormed (List.cons_ne_nil _ _) _,
      List.forall_mem_nil _⟩
  · split
    · exact List.forall_mem_nil _
    · exact List.forall_mem_singleton.mpr (relationships_wellFormed _ _)
  · intro part mem
    obtain ⟨media, _, rfl⟩ := List.mem_map.mp mem
    exact trivial

/-- The text of every part of markup is a declaration and one element, in which tags nest, no
attribute comes twice, and all that the document holds stays text or a value. -/
theorem pack_isDocument (document : Document) (mode : OutputMode) {name : String} {root : Node}
    (packed : ⟨name, .markup root⟩ ∈ (document.pack mode).parts) :
    Xml.IsDocument (Xml.print root) :=
  parts_wellFormed document ⟨name, .markup root⟩ packed

/-- Tags and quotes in every text: a link in a table in a table, and a footnote with a formula. -/
def hostileDocument : Document where
  properties := { title := some "</dc:title>" }
  background := some "\" onload=\""
  sections := [[.table ⟨[⟨[⟨[.table ⟨[⟨[⟨[.paragraph {
    children := [.link "a&b" [.text { text := "]]><w:p>" }, .footnoteReference 1]]
    properties := some { style := some "'\"&lt;" } }], none⟩], none⟩], none⟩], none⟩], none⟩],
    none⟩]]
  footnotes := [(1, [{ children := [.math [.fraction [.text "<"] [.text "&\u0000"]]] }])]

theorem pack_isDocument_hostile :
    ∃ body footnotes,
      ⟨"word/document.xml", .markup body⟩ ∈ (hostileDocument.pack .buffer).parts ∧
      ⟨"word/footnotes.xml", .markup footnotes⟩ ∈ (hostileDocument.pack .buffer).parts ∧
      Xml.IsDocument (Xml.print body) ∧ Xml.IsDocument (Xml.print footnotes) := by
  have body : (hostileDocument.pack .buffer).parts[3]? = some ⟨"word/document.xml", _⟩ := rfl
  have footnotes : (hostileDocument.pack .buffer).parts[7]? = some ⟨"word/footnotes.xml", _⟩ := rfl
  have packed := List.mem_of_getElem? body
  have packed' := List.mem_of_getElem? footnotes
  exact ⟨_, _, packed, packed', pack_isDocument _ _ packed, pack_isDocument _ _ packed'⟩

end WordExport
