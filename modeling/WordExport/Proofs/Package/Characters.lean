import Mathlib.Data.List.ReduceOption
import WordExport.Proofs.Package.Markup
import WordExport.Proofs.Package.Texts

set_option autoImplicit false

namespace WordExport

open Xml (Node Tag isText isText_append isText_ofList)
open Xml.Node (childTexts)

section

variable {own : List String}

mutual

theorem url_mem_inlineTexts {url : String} (item : Inline) (mem : .link url ∈ item.uses) :
    url ∈ item.texts := by
  cases item with
  | link target children =>
    rcases List.mem_cons.mp mem with same | below
    · cases same
      exact List.mem_cons_self
    · exact List.mem_cons_of_mem _ (url_mem_itemTexts children below)
  | image => cases List.mem_singleton.mp mem
  | text | math | checkbox | footnoteReference => contradiction

theorem url_mem_itemTexts {url : String} (items : List Inline) (mem : .link url ∈ itemUses items) :
    url ∈ itemTexts items := by
  cases items with
  | nil => contradiction
  | cons item items =>
    rcases List.mem_append.mp mem with first | later
    · exact List.mem_append_left _ (url_mem_inlineTexts item first)
    · exact List.mem_append_right _ (url_mem_itemTexts items later)

end

theorem url_mem_paragraphTexts {url : String} {paragraph : Paragraph}
    (mem : .link url ∈ paragraph.uses) : url ∈ paragraph.texts :=
  List.mem_append_right _ (url_mem_itemTexts _ mem)

mutual

theorem url_mem_texts {url : String} (block : Block) (mem : .link url ∈ block.uses) :
    url ∈ block.texts := by
  cases block with
  | paragraph paragraph => exact url_mem_paragraphTexts mem
  | table table =>
    obtain ⟨rows, options⟩ := table
    exact List.mem_append_right _ (url_mem_rowTexts rows mem)

theorem url_mem_rowTexts {url : String} (rows : List Row) (mem : .link url ∈ rowUses rows) :
    url ∈ rowTexts rows := by
  match rows with
  | [] => contradiction
  | ⟨cells, _⟩ :: rows =>
    rcases List.mem_append.mp mem with first | later
    · exact List.mem_append_left _ (url_mem_cellTexts cells first)
    · exact List.mem_append_right _ (url_mem_rowTexts rows later)

theorem url_mem_cellTexts {url : String} (cells : List Cell) (mem : .link url ∈ cellUses cells) :
    url ∈ cellTexts cells := by
  match cells with
  | [] => contradiction
  | ⟨children, _⟩ :: cells =>
    rcases List.mem_append.mp mem with first | later
    · exact List.mem_append_left _ (List.mem_append_right _ (url_mem_blockTexts children first))
    · exact List.mem_append_right _ (url_mem_cellTexts cells later)

theorem url_mem_blockTexts {url : String} (blocks : List Block)
    (mem : .link url ∈ blockUses blocks) : url ∈ blockTexts blocks := by
  match blocks with
  | [] => contradiction
  | block :: blocks =>
    rcases List.mem_append.mp mem with first | later
    · exact List.mem_append_left _ (url_mem_texts block first)
    · exact List.mem_append_right _ (url_mem_blockTexts blocks later)

end

/-- The targets of relationships are links and files of images. -/
theorem relationshipsFrom_known {uses : List Use}
    (known : ∀ url, .link url ∈ uses → url ∈ own) (images : Nat) :
    ∀ relationship ∈ relationshipsFrom images uses, Known own relationship.target := by
  induction uses generalizing images with
  | nil => exact List.forall_mem_nil _
  | cons use uses ih =>
    have later (images : Nat) := ih (fun url mem => known url (List.mem_cons_of_mem _ mem)) images
    cases use with
    | link url =>
      exact List.forall_mem_cons.mpr ⟨.inr (known url List.mem_cons_self), later images⟩
    | image image =>
      have file := isText_append (show isText "media/" = true by decide)
        (isText_mediaName (images + 1) image.data)
      exact List.forall_mem_cons.mpr ⟨.inl file, later (images + 1)⟩

theorem isText_uri (kind : RelationshipKind) : isText kind.uri = true := by
  cases kind <;> exact isText_ofList (by decide)

theorem relationshipsPart_quotes {relationships : List Relationship}
    (known : ∀ relationship ∈ relationships, Known own relationship.target) :
    Quotes own [relationshipsPart relationships] := by
  refine .element (List.forall_mem_singleton.mpr (.inl (isText_ofList (by decide))))
    (.all fun node mem => ?_)
  obtain ⟨index, inside, rfl⟩ := List.mem_mapIdx.mp mem
  apply Quotes.leaf
  rw [List.map_append]
  have mode : ∀ value ∈ (if (relationships[index]).kind.isExternal
      then [("TargetMode", "External")] else []).map Prod.snd, Known own value := by
    split
    · exact known_of_all (by decide)
    · exact List.forall_mem_nil _
  refine List.forall_mem_append.mpr ⟨?_, mode⟩
  simp only [List.map_cons, List.map_nil, List.forall_mem_cons]
  exact ⟨.inl (isText_relationshipId index), .inl (isText_uri _),
    known _ (List.getElem_mem inside), List.forall_mem_nil _⟩

theorem bodyRelationships_known :
    ∀ relationship ∈ bodyRelationships, Known own relationship.target := by
  have all : ∀ relationship ∈ bodyRelationships, isText relationship.target = true := by decide
  exact fun relationship mem => .inl (all relationship mem)

theorem packageRelationships_known :
    ∀ relationship ∈ packageRelationships, Known own relationship.target := by
  have all : ∀ relationship ∈ packageRelationships, isText relationship.target = true := by decide
  exact fun relationship mem => .inl (all relationship mem)

theorem contentTypesPart_quotes : Quotes own [contentTypesPart] := by
  have word : isText "application/vnd.openxmlformats-officedocument.wordprocessingml." = true :=
    isText_ofList (by decide)
  apply Quotes.fixed
  simp only [contentTypesPart, defaultType, overrideType, childTexts, Node.texts, List.map_cons,
    List.map_nil, List.cons_append, List.nil_append, List.all_cons, List.all_nil, Bool.and_true,
    Bool.and_eq_true]
  and_intros <;> try with_reducible refine isText_append word ?_
  all_goals exact isText_ofList (by decide)

theorem settingsPart_quotes (hasBackground : Bool) : Quotes own [settingsPart hasBackground] := by
  have shape : Quotes own (if hasBackground then [.leaf "w:displayBackgroundShape"] else []) :=
    .ite (.fixed (by decide)) .nil
  have separators : Quotes own [.element "w:footnotePr" [] [
      .leaf "w:footnote" [("w:id", "-1")], .leaf "w:footnote" [("w:id", "0")]]] :=
    .fixed (by decide)
  exact .element (List.forall_mem_singleton.mpr (.inl (isText_ofList (by decide))))
    (shape.append separators)

theorem coreProperties_quotes {properties : CoreProperties} (known : properties.texts ⊆ own) :
    Quotes own [properties.part] := by
  have field (name : String) {value : Option String} (inside : ∀ text ∈ value, Known own text) :
      Quotes own (optionalLeaf value fun text => .element name [] [.text text]) :=
    .optional fun text mem => .wrapped (.text (inside text mem))
  have given (name : String) (value : Option String) (listed : value ∈ [properties.title,
      properties.subject, properties.creator, properties.keywords, properties.description,
      properties.lastModifiedBy]) :
      Quotes own (optionalLeaf value fun text => .element name [] [.text text]) :=
    field name fun text mem => .inr (known (List.reduceOption_mem_iff.mpr (mem ▸ listed)))
  have namespaces : ∀ value ∈ [
      "http://schemas.openxmlformats.org/package/2006/metadata/core-properties",
      "http://purl.org/dc/elements/1.1/", "http://purl.org/dc/terms/",
      "http://purl.org/dc/dcmitype/", "http://www.w3.org/2001/XMLSchema-instance"],
      Known own value := by
    simp only [List.forall_mem_cons]
    refine ⟨?_, ?_, ?_, ?_, ?_, List.forall_mem_nil _⟩ <;> exact .inl (isText_ofList (by decide))
  have topic := (given "dc:title" properties.title (by simp)).append
    (given "dc:subject" properties.subject (by simp))
  have origin := (topic.append (given "dc:creator" properties.creator (by simp))).append
    (given "cp:keywords" properties.keywords (by simp))
  have history := (origin.append (given "dc:description" properties.description (by simp))).append
    (given "cp:lastModifiedBy" properties.lastModifiedBy (by simp))
  have revision : ∀ text ∈ properties.revision.map toString, Known own text := by
    intro text mem
    obtain ⟨number, _, rfl⟩ := Option.map_eq_some_iff.mp mem
    exact .inl (isText_toString number)
  exact .element namespaces (history.append (field "cp:revision" revision))

theorem levelMarkup_quotes {level : NumberingLevel} (known : Known own level.text) :
    Quotes own [level.markup] := by
  have number : ∀ value ∈ [toString level.level], Known own value :=
    List.forall_mem_singleton.mpr (.inl (isText_toString _))
  have start : Quotes own [.leaf "w:start" [("w:val", "1")]] := .fixed (by decide)
  have format : Quotes own [valueLeaf "w:numFmt" level.format.code] := by
    cases level.format <;> exact .fixed (by decide)
  have aligned : Quotes own [valueLeaf "w:lvlJc" level.alignment.code] :=
    .value (.inl (isText_alignmentCode _))
  have indented : Quotes own level.indentMarkup := by
    unfold NumberingLevel.indentMarkup
    cases level.indent with
    | none => exact .nil
    | some indent =>
      refine .wrapped (.leaf (List.forall_mem_cons.mpr ⟨.inl (isText_toString indent), ?_⟩))
      cases level.format <;> exact known_of_all (by decide)
  exact .element number ((start.append (format.append ((Quotes.value known).append aligned))).append
    indented)

theorem abstractNumbering_quotes (id : Nat) {levels : List NumberingLevel}
    (known : ∀ level ∈ levels, Known own level.text) :
    Quotes own [abstractNumbering id levels] := by
  have number : ∀ value ∈ [toString id], Known own value :=
    List.forall_mem_singleton.mpr (.inl (isText_toString id))
  have kind : Quotes own [.leaf "w:multiLevelType" [("w:val", "hybridMultilevel")]] :=
    .fixed (by decide)
  refine .element number (kind.cons (.all fun node mem => ?_))
  obtain ⟨level, listed, rfl⟩ := List.mem_map.mp mem
  exact levelMarkup_quotes (known level listed)

theorem instanceMarkup_quotes (id abstractId : Nat) : Quotes own [instanceMarkup id abstractId] :=
  .element (List.forall_mem_singleton.mpr (.inl (isText_toString id))) (.number abstractId)

theorem numberingPart_quotes {definitions : List NumberingDefinition}
    (known : definitions.flatMap NumberingDefinition.texts ⊆ own) :
    Quotes own [numberingPart definitions] := by
  have bullets : ∀ level ∈ bulletLevels, isText level.text = true := by decide
  refine .element (List.forall_mem_singleton.mpr (.inl (isText_ofList (by decide))))
    (.all fun node mem => ?_)
  rcases List.mem_append.mp mem with definition | numbered
  · rcases List.mem_cons.mp definition with rfl | custom
    · exact abstractNumbering_quotes 0 fun level listed => .inl (bullets level listed)
    · obtain ⟨index, inside, rfl⟩ := List.mem_mapIdx.mp custom
      refine abstractNumbering_quotes _ fun level listed => .inr (known ?_)
      exact List.mem_flatMap.mpr
        ⟨_, List.getElem_mem inside, List.mem_map_of_mem (f := NumberingLevel.text) listed⟩
  · rcases List.mem_cons.mp numbered with rfl | custom
    · exact instanceMarkup_quotes _ _
    · obtain ⟨index, _, rfl⟩ := List.mem_mapIdx.mp custom
      exact instanceMarkup_quotes _ _

theorem sizeMarkup_quotes (size : Nat) : Quotes own (sizeMarkup size) :=
  (Quotes.number size).cons (.number size)

theorem styleMarkup_quotes {style : ParagraphStyle}
    (known : ∀ text ∈ style.texts, Known own text) : Quotes own [style.markup] := by
  obtain ⟨named, optional⟩ := List.forall_mem_append.mp known
  have given {value : Option String}
      (listed : value ∈ [style.basedOn, style.next, style.color, style.font]) (text : String)
      (mem : text ∈ value) : Known own text :=
    optional text (List.reduceOption_mem_iff.mpr (mem ▸ listed))
  have kind : isText "paragraph" = true := by decide
  have tag : ∀ value ∈ ["paragraph", style.id], Known own value :=
    List.forall_mem_cons.mpr ⟨.inl kind, List.forall_mem_singleton.mpr (named _ (by simp))⟩
  have name : Quotes own [valueLeaf "w:name" style.name] := .value (named _ (by simp))
  have based : Quotes own (optionalLeaf style.basedOn (valueLeaf "w:basedOn")) :=
    .optional fun text mem => .value (given (by simp) text mem)
  have next : Quotes own (optionalLeaf style.next (valueLeaf "w:next")) :=
    .optional fun text mem => .value (given (by simp) text mem)
  have shown : Quotes own [.leaf "w:qFormat"] := .fixed (by decide)
  have outlined (level : Nat) : Quotes own [.element "w:pPr" [] [
      valueLeaf "w:outlineLvl" (toString level)]] := .wrapped (.number level)
  have font (text : String) (mem : text ∈ style.font) : Quotes own [.leaf "w:rFonts"
      [("w:ascii", text), ("w:hAnsi", text), ("w:cs", text)]] := by
    have known := given (by simp) text mem
    exact .leaf (by simp [known])
  have bold : Quotes own (if style.bold then [.leaf "w:b", .leaf "w:bCs"] else []) :=
    .ite (.fixed (by decide)) .nil
  have italics : Quotes own (if style.italics then [.leaf "w:i", .leaf "w:iCs"] else []) :=
    .ite (.fixed (by decide)) .nil
  have color : Quotes own (optionalLeaf style.color (valueLeaf "w:color")) :=
    .optional fun text mem => .value (given (by simp) text mem)
  have size : Quotes own ((style.size.map sizeMarkup).getD []) :=
    .mapped fun size _ => sizeMarkup_quotes size
  have runs : Quotes own style.runProperties :=
    ((((Quotes.optional font).append bold).append italics).append color).append size
  exact .element tag (((((name.append based).append next).append shown).append
    (.optional fun level _ => outlined level)).append runs.unlessEmpty)

theorem defaultProperties_quotes {sheet : StyleSheet} (known : sheet.defaultFont.toList ⊆ own) :
    Quotes own [defaultProperties sheet] := by
  have font (text : String) (mem : text ∈ sheet.defaultFont) : Quotes own [.leaf "w:rFonts"
      [("w:ascii", text), ("w:eastAsia", text), ("w:hAnsi", text), ("w:cs", text)]] := by
    have known : Known own text := .inr (known (Option.mem_toList.mpr mem))
    exact .leaf (by simp [known])
  have size : Quotes own ((sheet.defaultSize.map sizeMarkup).getD []) :=
    .mapped fun size _ => sizeMarkup_quotes size
  have paragraphs : Quotes own [.leaf "w:pPrDefault"] := .fixed (by decide)
  exact .wrapped (Quotes.cons (.wrapped (.wrapped ((Quotes.optional font).append size))) paragraphs)

theorem stylesPart_quotes {sheet : StyleSheet} (known : sheet.texts ⊆ own) :
    Quotes own [stylesPart sheet] := by
  obtain ⟨font, styles⟩ := List.append_subset.mp known
  have builtIn : ∀ style ∈ builtInStyles, style.texts.all isText = true := by decide
  have normal : Quotes own [normalStyle] := .fixed (by decide)
  have all : Quotes own ((paragraphStyles sheet.paragraphStyles).map ParagraphStyle.markup) := by
    refine .all fun node mem => ?_
    obtain ⟨style, present, rfl⟩ := List.mem_map.mp mem
    rcases List.mem_append.mp present with kept | custom
    · exact styleMarkup_quotes (known_of_all (builtIn style (List.mem_filter.mp kept).1))
    · exact styleMarkup_quotes fun text listed =>
        .inr (styles (List.mem_flatMap.mpr ⟨style, custom, listed⟩))
  have characters : Quotes own [
      characterStyle "Hyperlink" "Hyperlink"
        [valueLeaf "w:color" "0563C1", valueLeaf "w:u" "single"],
      characterStyle "FootnoteReference" "footnote reference"
        [valueLeaf "w:vertAlign" "superscript"]] := .fixed (by decide)
  exact .element (List.forall_mem_singleton.mpr (.inl (isText_ofList (by decide))))
    ((((defaultProperties_quotes font).cons normal).append all).append characters)

/-- What is written leaves behind only relationships with targets that are known. -/
theorem Records.known {α : Type} {uses : List Use} {marks : α → List Mark} {write : Writing α}
    (recorded : Records uses marks write) (links : ∀ url, .link url ∈ uses → url ∈ own)
    (ledger : Ledger) (before : ∀ relationship ∈ ledger.relationships,
      Known own relationship.target) :
    ∀ relationship ∈ (write ledger).2.relationships, Known own relationship.target := by
  rw [(recorded ledger).1]
  exact List.forall_mem_append.mpr ⟨before, relationshipsFrom_known links _⟩

/-- The tags of a part of markup are sound, and it quotes only the given texts. -/
def Part.Draws (own : List String) : Part → Prop
  | ⟨_, .markup root⟩ => root.tags.all Tag.isSound = true ∧ Quotes own [root]
  | ⟨_, .media _⟩ => True

theorem Bears.draws {notes : List Tag} {root : Node} (borne : Bears notes [root])
    (quotes : Quotes own [root]) (name : String) : Part.Draws own ⟨name, .markup root⟩ :=
  ⟨borne.sound_tags, quotes⟩

theorem relationships_draw {relationships : List Relationship}
    (known : ∀ relationship ∈ relationships, Known own relationship.target) (name : String) :
    Part.Draws own ⟨name, .markup (relationshipsPart relationships)⟩ :=
  (relationshipsPart_plain relationships).bears.draws (relationshipsPart_quotes known) name

end

theorem parts_draw (document : Document) :
    ∀ part ∈ document.parts, part.Draws document.texts := by
  obtain ⟨others, footnotes⟩ := List.append_subset.mp (List.Subset.refl document.texts)
  obtain ⟨others, blocks⟩ := List.append_subset.mp others
  obtain ⟨others, numbering⟩ := List.append_subset.mp others
  obtain ⟨others, background⟩ := List.append_subset.mp others
  obtain ⟨properties, styles⟩ := List.append_subset.mp others
  have bodyLinks (url : String) (mem : .link url ∈ document.bodyUses) : url ∈ document.texts :=
    blocks (url_mem_blockTexts _ mem)
  have noteLinks (url : String) (mem : .link url ∈ document.footnoteUses) :
      url ∈ document.texts := by
    obtain ⟨footnote, listed, inside⟩ := List.mem_flatMap.mp mem
    obtain ⟨paragraph, present, used⟩ := List.mem_flatMap.mp inside
    exact footnotes (List.mem_flatMap.mpr
      ⟨footnote, listed, List.mem_flatMap.mpr ⟨paragraph, present, url_mem_paragraphTexts used⟩⟩)
  have bodyRelated := (bodyPart_records document).known bodyLinks
    { relationships := bodyRelationships } bodyRelationships_known
  have noteRelated (media : List Media) := (footnotesPart_records document).known noteLinks
    { media } (List.forall_mem_nil _)
  refine List.forall_mem_append.mpr ⟨List.forall_mem_append.mpr ⟨?_, ?_⟩, ?_⟩
  · simp only [List.forall_mem_cons]
    refine ⟨contentTypesPart_plain.bears.draws contentTypesPart_quotes _,
      relationships_draw packageRelationships_known _,
      (coreProperties_plain _).bears.draws (coreProperties_quotes properties) _,
      (bodyPart_bears document _).draws (bodyPart_quotes blocks background _) _,
      relationships_draw bodyRelated _,
      (stylesPart_plain _).bears.draws (stylesPart_quotes styles) _,
      (numberingPart_plain _).bears.draws (numberingPart_quotes numbering) _,
      (footnotesPart_bears document _).draws (footnotesPart_quotes footnotes _) _,
      (settingsPart_plain _).bears.draws (settingsPart_quotes _) _,
      List.forall_mem_nil _⟩
  · split
    · exact List.forall_mem_nil _
    · exact List.forall_mem_singleton.mpr (relationships_draw (noteRelated _) _)
  · intro part mem
    obtain ⟨media, _, rfl⟩ := List.mem_map.mp mem
    exact trivial

/-- Every character of a part of markup is one that XML 1.0 can represent, or one of the last two of
the basic plane that stands in a text of the document. -/
theorem pack_characters (document : Document) (mode : OutputMode) {name : String} {root : Node}
    (packed : ⟨name, .markup root⟩ ∈ (document.pack mode).parts) :
    ∀ c ∈ (Xml.print root).toList,
      Xml.isChar c = true ∨
        Xml.isNoncharacter c = true ∧ ∃ text ∈ document.texts, c ∈ text.toList := by
  intro c written
  obtain ⟨sound, quotes⟩ := parts_draw document ⟨name, .markup root⟩ packed
  rcases Xml.comesFrom_print sound written with plain | ⟨last, text, quoted, inside⟩
  · exact .inl plain
  · rcases quotes text (List.mem_append_left _ quoted) with fixed | own
    · exact .inl (List.all_eq_true.mp fixed c inside)
    · exact .inr ⟨last, text, own, inside⟩

/-- One of the two stands in a title, after a control, and the other one in a paragraph. -/
def lastCharacterDocument : Document where
  properties := { title := some "\u0000\uffff" }
  sections := [[.paragraph { children := [.text { text := "a\ufffeb" }] }]]

theorem pack_characters_last :
    ∃ body, ⟨"word/document.xml", .markup body⟩ ∈ (lastCharacterDocument.pack .buffer).parts ∧
      ∀ c ∈ (Xml.print body).toList,
        Xml.isChar c = true ∨
          Xml.isNoncharacter c = true ∧ ∃ text ∈ lastCharacterDocument.texts, c ∈ text.toList := by
  have body : (lastCharacterDocument.pack .buffer).parts[3]? = some ⟨"word/document.xml", _⟩ := rfl
  have packed := List.mem_of_getElem? body
  exact ⟨_, packed, pack_characters _ _ packed⟩

/-- What XML cannot represent is written all the same. -/
theorem lastCharacter_written :
    ∃ body, ⟨"word/document.xml", .markup body⟩ ∈ (lastCharacterDocument.pack .buffer).parts ∧
      ∃ c ∈ (Xml.print body).toList, Xml.isChar c = false := by
  have body : (lastCharacterDocument.pack .buffer).parts[3]? = some ⟨"word/document.xml", _⟩ := rfl
  have quoted : "a\ufffeb" ∈
      (bodyPart lastCharacterDocument { relationships := bodyRelationships }).1.texts := by decide
  have written := Xml.mem_print quoted (show '\ufffe' ∈ "a\ufffeb".toList by decide) (by decide)
  exact ⟨_, List.mem_of_getElem? body, '\ufffe', written, by decide⟩

end WordExport
