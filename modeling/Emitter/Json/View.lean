import Emitter.Json.Number

/-! What a JSON value holds when it is asked for a text, a number or the members of an object. -/

namespace Emitter.Json

-- Powers are those of the core library, also where others are in scope.
attribute [local instance (high)] instPowNat

/-- The nesting that is too deep to be kept. -/
def maxDepth : Nat := 127

mutual

def depth : Json → Nat
  | .array items => depthOfItems items + 1
  | .object members => depthOfMembers members + 1
  | _ => 0

def depthOfItems : List Json → Nat
  | [] => 0
  | v :: rest => max (depth v) (depthOfItems rest)

def depthOfMembers : List (Option String × Json) → Nat
  | [] => 0
  | (_, v) :: rest => max (depth v) (depthOfMembers rest)

end

mutual

/-- Every string stands for a text and every number is in range. -/
def isSound : Json → Bool
  | .number n => n.read.isSome
  | .string text => text.isSome
  | .array items => areSound items
  | .object members => areSoundMembers members
  | _ => true

def areSound : List Json → Bool
  | [] => true
  | v :: rest => isSound v && areSound rest

def areSoundMembers : List (Option String × Json) → Bool
  | [] => true
  | (key, v) :: rest => key.isSome && isSound v && areSoundMembers rest

end

/-- What can be kept until it is known what to read from it. -/
def canBeHeld (v : Json) : Bool := v.isSound && v.depth < maxDepth

def string? : Json → Option String
  | .string text => text
  | _ => none

def bool? : Json → Option Bool
  | .bool b => some b
  | _ => none

/-- A natural number below the limit, written as an integer. -/
def natural? (limit : Nat) : Json → Option Nat
  | .number n =>
    match n.read with
    | some (.natural n) => if n < limit then some n else none
    | _ => none
  | _ => none

def double? : Json → Option UInt64
  | .number n => n.read.map fun
    | .natural n => UInt64.ofNat (Reading.nearest (.ofNat n))
    | .negative n => UInt64.ofNat (Binary.double.round true (.ofNat n))
    | .double bits => UInt64.ofNat bits
  | _ => none

/-- Integers are rounded to a single at once, other numbers by way of a double. -/
def single? : Json → Option UInt32
  | .number n => n.read.map fun
    | .natural n => UInt32.ofNat (Binary.single.round false (.ofNat n))
    | .negative n => UInt32.ofNat (Binary.single.round true (.ofNat n))
    | .double bits =>
      UInt32.ofNat (Binary.single.round (2 ^ (63 : Nat) ≤ bits) (Reading.size bits))
  | _ => none

/-- The values of the members with a key, if every key is a text. -/
def valuesOf (key : String) (members : List (Option String × Json)) : Option (List Json) :=
  if members.all (·.1.isSome) then
    some ((members.filter (·.1 == some key)).map (·.2))
  else none

/-- The value of the only member with a key. -/
def only (key : String) (members : List (Option String × Json)) : Option Json :=
  match valuesOf key members with
  | some [v] => some v
  | _ => none

end Emitter.Json
