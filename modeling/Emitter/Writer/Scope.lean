/-! Scopes of a writer: what opening one hands out, and what the writer records about it. -/

namespace Emitter

inductive ScopeKind where
  | indent
  | leftAdjusted
  | linePrefix
deriving DecidableEq, Repr

def ScopeKind.name : ScopeKind → String
  | indent => "indent"
  | leftAdjusted => "left-adjusted"
  | linePrefix => "prefix"

/-- Handed out when a scope opens, and handed back to close it. -/
structure Token where
  id : Nat
  kind : ScopeKind
deriving DecidableEq, Repr

def Token.name (t : Token) : String := t.kind.name ++ " scope #" ++ toString t.id

/-- The state recorded when a scope opens, and the line to write when it closes. -/
inductive Frame where
  | indent (id level : Nat) (closing : Option String)
  | leftAdjusted (id level : Nat) (closing : String)
  | linePrefix (id : Nat) (installed : String) (previous : Option String)
deriving DecidableEq, Repr

def Frame.token : Frame → Token
  | indent id _ _ => ⟨id, .indent⟩
  | leftAdjusted id _ _ => ⟨id, .leftAdjusted⟩
  | linePrefix id _ _ => ⟨id, .linePrefix⟩

/-- Why a scope cannot be closed. -/
inductive ScopeFault where
  | noneOpen (found : Token)
  | outOfOrder (expected found : Token)
  | level (expected found : Nat)
  | linePrefix (expected : String) (found : Option String)
deriving DecidableEq, Repr

end Emitter
