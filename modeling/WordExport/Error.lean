set_option autoImplicit false

namespace WordExport

/-- Faults of the tree itself. -/
inductive TreeFault where
  | unknownNode
  | unexpectedNode (kind : String)
  | invalidFootnoteId (identifier : String)
  | undefinedFootnote (identifier : String)
  deriving DecidableEq, Repr

/-- Faults in finding the images of a tree. -/
inductive ImageFault where
  | missingResolver
  | fetchFailed (url reason : String)
  | notResolved (url : String)
  deriving DecidableEq, Repr

/-- Faults of the texts that a tree and its options are read from. -/
inductive InputFault where
  | tree (reason : String)
  | options (reason : String)
  deriving DecidableEq, Repr

inductive Error where
  | conversion (fault : TreeFault)
  | resolution (fault : ImageFault)
  | configuration (fault : InputFault)
  | io (reason : String)
  deriving DecidableEq, Repr

def TreeFault.message : TreeFault → String
  | unknownNode => "unreachable: unknown node kind"
  | unexpectedNode kind => "unreachable: `" ++ kind ++ "` node outside of its parent"
  | invalidFootnoteId identifier => "Invalid footnote identifier: " ++ identifier
  | undefinedFootnote identifier => "Footnote reference without definition: " ++ identifier

def ImageFault.message : ImageFault → String
  | missingResolver => "options.image_resolver is not defined"
  | fetchFailed url reason => "Fetch image was failed: " ++ url ++ ": " ++ reason
  | notResolved url => "Fetch image was failed: " ++ url

def InputFault.message : InputFault → String
  | tree reason => "Invalid mdast JSON: " ++ reason
  | options reason => "Invalid TOML options: " ++ reason

def Error.message : Error → String
  | conversion fault => "Conversion error: " ++ fault.message
  | resolution fault => "Resolution error: " ++ fault.message
  | configuration fault => "Configuration error: " ++ fault.message
  | io reason => "IO error: " ++ reason

end WordExport
