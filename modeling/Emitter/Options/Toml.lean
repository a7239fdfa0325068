import Emitter.Error
import Emitter.Options.Basic
import Emitter.Toml.Reader

/-! Session options written as TOML. Every key may be left out, and no other key may be there. -/

namespace Emitter

namespace Toml.Item

def string? : Item → Option String
  | string text => some text
  | _ => none

def boolean? : Item → Option Bool
  | boolean b => some b
  | _ => none

/-- A variant by its name alone, or as the only key of a table. -/
def variant? : Item → Option (String × Option Item)
  | string name => some (name, none)
  | table _ [(name, content)] => some (name, some content)
  | _ => none

/-- Nothing, or an empty table or array. -/
def isEmpty : Option Item → Bool
  | none => true
  | some noItems => true
  | some (table _ []) => true
  | _ => false

/-- The name of a variant that has no content. -/
def name? (item : Item) : Option String :=
  match item.variant? with
  | some (name, content) => if isEmpty content then some name else none
  | none => none

def indent? (item : Item) : Option Indent :=
  match item.variant? with
  | some ("tab", content) => if isEmpty content then some .tab else none
  | some ("spaces", some (integer n)) =>
    if 0 ≤ n ∧ n < 256 then some (.spaces (UInt8.ofNat n.toNat)) else none
  | _ => none

end Toml.Item

namespace SessionOptions

def withEntry (o : SessionOptions) (key : String) (item : Toml.Item) : Option SessionOptions :=
  match key with
  | "base_output_directory" =>
    item.string?.map fun text => { o with baseOutputDirectory := ⟨text⟩ }
  | "generated_file_header" =>
    item.string?.map fun text => { o with generatedFileHeader := some text }
  | "auto_rename_conflicting_files" =>
    item.boolean?.map fun b => { o with autoRenameConflictingFiles := b }
  | "write_file_log" => item.boolean?.map fun b => { o with writeFileLog := b }
  | "clean_stale_output" => item.boolean?.map fun b => { o with cleanStaleOutput := b }
  | "encoding" =>
    (item.name?.bind TextEncoding.ofName?).map fun encoding => { o with encoding }
  | "line_ending" =>
    (item.name?.bind LineEnding.ofName?).map fun lineEnding => { o with lineEnding }
  | "indent" => item.indent?.map fun indent => { o with indent }
  | _ => none

def ofToml? (text : String) : Option SessionOptions := do
  (← Toml.Reader.document? text.toList).foldlM (fun o (key, item) => o.withEntry key item) {}

/-- The name in messages when a text comes from no file. -/
def defaultFile : String := "scrivener.toml"

def parse (file text : String) : Except Error SessionOptions :=
  match ofToml? text with
  | some o => .ok o
  | none => .error (.config file)

/-- From a file; a relative base directory is seen from the file's directory. -/
def load (path : Path) (d : Disk) : Except Error SessionOptions := do
  let text ← (d.readText path).mapError (.io path)
  let o ← parse path.text text
  return if o.baseOutputDirectory.isAbsolute then o
    else match path.parent? with
      | some parent => { o with baseOutputDirectory := parent.join o.baseOutputDirectory }
      | none => o

end SessionOptions

end Emitter
