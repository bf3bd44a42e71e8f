import WordExport.Error
import WordExport.Options
import WordExport.Toml.Reader

set_option autoImplicit false

/- Options from TOML. Unknown keys are left aside, and all but a few keys may be missing. -/

namespace WordExport

open Toml (Value)

/-- The values given for the fields of a structure. -/
abbrev Fields := List (String × Value)

/-- The fields of a structure: the entries of a table, or the items of an array in the order of the
names. A date stands for a table without any of them. -/
def fields? (names : List String) : Value → Option Fields
  | .table entries => some entries
  | .array items => some (names.zip items)
  | .dateTime => some []
  | _ => none

namespace Fields

def required? {α : Type} (fields : Fields) (name : String) (read : Value → Option α) : Option α :=
  (fields.lookup name).bind read

def orElse? {α : Type} (fields : Fields) (name : String) (absent : α) (read : Value → Option α) :
    Option α :=
  match fields.lookup name with
  | some value => read value
  | none => some absent

def optional? {α : Type} (fields : Fields) (name : String) (read : Value → Option α) :
    Option (Option α) :=
  fields.orElse? name none fun value => (read value).map some

end Fields

namespace Toml.Value

def text? : Value → Option String
  | string s => some s
  | _ => none

def bool? : Value → Option Bool
  | boolean b => some b
  | _ => none

def below? (bound : Nat) : Value → Option Nat
  | integer n => if 0 ≤ n ∧ n < bound then some n.toNat else none
  | _ => none

def listOf? {α : Type} (read : Value → Option α) : Value → Option (List α)
  | array items => items.mapM read
  | _ => none

/-- One of the values given, by its name or by a table with the name as its one key and nothing
under it. -/
def choice? {α : Type} (all : List α) (name : α → String) : Value → Option α
  | string s | table [(s, table [])] | table [(s, array [])] => all.find? (name · == s)
  | _ => none

end Toml.Value

def word? : Value → Option Nat := Value.below? UInt32.size

def Alignment.ofValue? : Value → Option Alignment := Value.choice? all code

def WidthUnit.ofValue? : Value → Option WidthUnit := Value.choice? all code

def TableLayout.ofValue? : Value → Option TableLayout := Value.choice? all code

def VerticalAlignment.ofValue? : Value → Option VerticalAlignment := Value.choice? all code

def OutputMode.ofValue? : Value → Option OutputMode :=
  Value.choice? [buffer, blob] fun
    | buffer => "buffer"
    | blob => "blob"

def Width.ofValue? (value : Value) : Option Width := do
  let fields ← fields? ["size", "type"] value
  return {
    size := ← fields.required? "size" word?
    unit := ← fields.orElse? "type" .auto WidthUnit.ofValue? }

def RowProperties.ofValue? (value : Value) : Option RowProperties := do
  let fields ← fields? ["table_header", "cant_split", "height"] value
  return {
    isHeader := ← fields.orElse? "table_header" false Value.bool?
    cantSplit := ← fields.orElse? "cant_split" false Value.bool?
    height := ← fields.optional? "height" word? }

def CellProperties.ofValue? (value : Value) : Option CellProperties := do
  let fields ← fields? ["width", "shading", "vertical_align"] value
  return {
    width := ← fields.optional? "width" Width.ofValue?
    shading := ← fields.optional? "shading" Value.text?
    verticalAlignment := ← fields.optional? "vertical_align" VerticalAlignment.ofValue? }

def ParagraphProperties.ofValue? (value : Value) : Option ParagraphProperties := do
  let fields ← fields? ["style", "alignment", "spacing_before", "spacing_after", "bold"] value
  return {
    style := ← fields.optional? "style" Value.text?
    alignment := ← fields.optional? "alignment" Alignment.ofValue?
    spacingBefore := ← fields.optional? "spacing_before" word?
    spacingAfter := ← fields.optional? "spacing_after" word?
    bold := ← fields.orElse? "bold" false Value.bool? }

def TableOptions.ofValue? (value : Value) : Option TableOptions := do
  let fields ← fields? ["width", "layout", "style"] value
  return {
    width := ← fields.optional? "width" Width.ofValue?
    layout := ← fields.optional? "layout" TableLayout.ofValue?
    style := ← fields.optional? "style" Value.text? }

def TablePart.ofValue? (value : Value) : Option TablePart := do
  let fields ← fields? ["row", "cell", "paragraph"] value
  return {
    row := ← fields.orElse? "row" {} RowProperties.ofValue?
    cell := ← fields.orElse? "cell" {} CellProperties.ofValue?
    paragraph := ← fields.orElse? "paragraph" {} ParagraphProperties.ofValue? }

def TablePreset.ofValue? (value : Value) : Option TablePreset := do
  let fields ← fields? ["options", "header", "body"] value
  return {
    options := ← fields.optional? "options" TableOptions.ofValue?
    header := ← fields.optional? "header" TablePart.ofValue?
    body := ← fields.optional? "body" TablePart.ofValue? }

def ParagraphStyle.ofValue? (value : Value) : Option ParagraphStyle := do
  let fields ← fields? ["id", "name", "based_on", "next", "bold", "italics", "size", "color",
    "font", "outline_level"] value
  return {
    id := ← fields.orElse? "id" "" Value.text?
    name := ← fields.orElse? "name" "" Value.text?
    basedOn := ← fields.optional? "based_on" Value.text?
    next := ← fields.optional? "next" Value.text?
    bold := ← fields.orElse? "bold" false Value.bool?
    italics := ← fields.orElse? "italics" false Value.bool?
    size := ← fields.optional? "size" word?
    color := ← fields.optional? "color" Value.text?
    font := ← fields.optional? "font" Value.text?
    outlineLevel := ← fields.optional? "outline_level" (Value.below? 256) }

def StyleSheet.ofValue? (value : Value) : Option StyleSheet := do
  let fields ← fields? ["default_font", "default_size", "paragraph_styles"] value
  return {
    defaultFont := ← fields.optional? "default_font" Value.text?
    defaultSize := ← fields.optional? "default_size" word?
    paragraphStyles := ← fields.orElse? "paragraph_styles" []
      (Value.listOf? ParagraphStyle.ofValue?) }

/-- The color of a page background. -/
def backgroundOfValue? (value : Value) : Option String := do
  let fields ← fields? ["color"] value
  fields.required? "color" Value.text?

def Options.ofFields? (fields : Fields) : Option Options := do
  return {
    output := ← fields.orElse? "output" .buffer OutputMode.ofValue?
    title := ← fields.optional? "title" Value.text?
    subject := ← fields.optional? "subject" Value.text?
    creator := ← fields.optional? "creator" Value.text?
    keywords := ← fields.optional? "keywords" Value.text?
    description := ← fields.optional? "description" Value.text?
    lastModifiedBy := ← fields.optional? "last_modified_by" Value.text?
    revision := ← fields.optional? "revision" word?
    styles := ← fields.optional? "styles" StyleSheet.ofValue?
    background := ← fields.optional? "background" backgroundOfValue?
    tablePreset := ← fields.optional? "table_style" TablePreset.ofValue? }

/-- The options that a TOML text gives. -/
def Options.ofToml (text : String) : Except InputFault Options :=
  match Toml.read? text with
  | none => .error (.options "not a TOML text")
  | some entries =>
    match ofFields? entries with
    | none => .error (.options "not the options of an export")
    | some options => .ok options

end WordExport
