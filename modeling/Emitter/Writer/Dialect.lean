import Emitter.Include
import Emitter.Writer.Hook

/-! Families of languages: how they mark comments, what stands before the body of a file, and what
happens before a file is finished. -/

namespace Emitter

/-- The includes of a file; relative ones are resolved against the base. -/
structure Includes where
  quoted : IncludeSet := {}
  system : IncludeSet := {}
  base : Option Path := none

namespace Includes

def withOrder (order : IncludeOrder) : Includes := { quoted := { order }, system := { order } }

/-- Seen from the working folder unless there is a base. -/
def resolve (i : Includes) (working : Path) (path : String) : Path :=
  Path.absolutize (i.base.getD working) (.ofPortable path)

def addQuoted (i : Includes) (working : Path) (path : String) : Includes :=
  { i with quoted := i.quoted.insert (i.resolve working path) }

/-- Relative paths are left to the compiler's search path. -/
def addSystem (i : Includes) (path : String) : Includes :=
  { i with system := i.system.insert (Path.ofPortable path).normalize }

def setBase (i : Includes) (working : Path) (path : String) : Includes :=
  { i with base := some (Path.absolutize working (.ofPortable path)) }

def setOrder (i : Includes) (order : IncludeOrder) : Includes :=
  { i with quoted := { i.quoted with order }, system := { i.system with order } }

/-- One line for each path, and an empty line after the last. -/
def block (open_ close : String) (paths : List String) : String :=
  String.join (paths.map fun p => "#include " ++ open_ ++ p ++ close ++ "\n") ++
    if paths.isEmpty then "" else "\n"

def preamble (i : Includes) (directory : Path) : String :=
  block "\"" "\"" (i.quoted.render directory) ++ block "<" ">" (i.system.render directory)

end Includes

/-- A language of the caller's own. Its states are numbered, and it starts in the first. -/
structure Language where
  kind : String
  marker : Nat → String
  preamble : Nat → Path → String
  hasBlocks : Bool
  beforeFinish : Nat → Hook

/-- Has a hook in all states but the first, in which it writes a footer. -/
def Language.hooked (hook : Hook) : Language where
  kind := "hook"
  marker _ := "# "
  preamble _ _ := ""
  hasBlocks := false
  beforeFinish
    | 0 => .footer
    | _ => hook

inductive Dialect where
  | text (marker : String) (preamble : Option String)
  | cLike
  | cpp (includes : Includes)
  | custom (language : Language) (state : Nat)

namespace Dialect

def hooked (hook : Hook) : Dialect := custom (.hooked hook) 1

def kind : Dialect → String
  | text .. => "text"
  | cLike => "c-like"
  | cpp _ => "cpp"
  | custom language _ => language.kind

/-- A dialect of the same family as it is by default. -/
def plain : Dialect → Dialect
  | text .. => text "" none
  | cLike => cLike
  | cpp _ => cpp {}
  | custom language _ => custom language 0

def commentMarker : Dialect → String
  | text marker _ => marker
  | cLike => "// "
  | cpp _ => "// "
  | custom language state => language.marker state

def preamble (directory : Path) : Dialect → String
  | text _ (some line) => line ++ "\n"
  | text _ none => ""
  | cLike => ""
  | cpp includes => includes.preamble directory
  | custom language state => language.preamble state directory

/-- Blocks stand between braces. -/
def hasBlocks : Dialect → Bool
  | cLike => true
  | cpp _ => true
  | text .. => false
  | custom language _ => language.hasBlocks

def includes? : Dialect → Option Includes
  | cpp includes => some includes
  | _ => none

def hook : Dialect → Hook
  | custom language state => language.beforeFinish state
  | _ => .idle

/-- In another state, where there are states. -/
def enter (state : Nat) : Dialect → Dialect
  | custom language _ => custom language state
  | dialect => dialect

end Dialect

end Emitter
