import Emitter.Session.Basic
import Emitter.Table

/-! Scripts: what can be asked of a writer, step by step, and what is answered. -/

namespace Emitter.Script

/-- A call on a writer that has no steps inside it. Tokens of open scopes are kept by name. The two
formatted writes are those that scripts have names for; any other is a `write` of its text. -/
inductive Command where
  | write (text : String)
  | writeChar (c : Char)
  | writeLine (text : String)
  | blankLine
  | writeEquation (text : String) (number : Int)
  | writeLiteral
  | leftAdjusted (text : String)
  | indented (text : String)
  | noSeparation
  | separate
  | finish
  | render
  | info
  | openIndent (token : String) (start closing : Option String)
  | openLeft (token start closing : String)
  | openPrefix (token text : String)
  | openBlock (token : String)
  | openDisabled (token : String) (message : Option String)
  | close (token : String)
  | setPreamble (text : String)
  | addQuoted (path : String)
  | addSystem (path : String)
  | setIncludeBase (path : String)
  | setIncludeOrder (order : IncludeOrder)
  | includes
  | fail (text : Option String)

/-- A scope around steps. A disabled region that is not disabled adds nothing. -/
inductive Around where
  | indent
  | indentLines (start closing : String)
  | leftLines (start closing : String)
  | linePrefix (text : String)
  | block
  | disabled (isDisabled : Bool) (message : Option String)

/-- A step on a writer. An error ends the steps around it where it propagates. -/
inductive Act where
  | call (propagates : Bool) (command : Command)
  | within (propagates : Bool) (around : Around) (body : List Act)

/-- What a script may name and not find. -/
inductive Noun where
  | writer
  | session
  | output
  | registry
deriving DecidableEq, Repr

inductive Reply where
  | done
  | nothing
  | text (text : String)
  | flag (b : Bool)
  | token (token : Token)
  | info (path directory : Path) (kind : String) (settings : Settings)
  | includes (quoted system : List Path)
  | committed (result : Except Error Nat) (isCommitted : Bool)
  | paths (paths : List Path)
  | tree (tree : List (String × Disk.Shown))
  | registry (registry : Registry)
  | options (options : SessionOptions)
  | failed (error : Error)
  | missing (noun : Noun)
  | notAvailable

def Reply.error? : Reply → Option Error
  | failed error => some error
  | _ => none

def Reply.ofUnit : Except Error Unit → Reply
  | .ok _ => done
  | .error e => failed e

/-- What is seen of a writer after a step; of one that was opened by kind less is seen. -/
inductive Status where
  | full (level : Nat) (linePrefix : Option String) (scopes : Nat) (fresh finished : Bool)
      (added : String)
  | brief (kind : String) (path : Path) (finished : Bool)

end Emitter.Script
