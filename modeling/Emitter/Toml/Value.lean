/-! What a TOML document can hold that a configuration here may use: strings, integers, booleans,
empty arrays and tables. Everything else a document may hold has no place in one. -/

namespace Emitter.Toml

/-- How a table came to be, which decides who may add to it: by its own header, by the header of a
table below it, by a dotted key, or written as a value. -/
inductive Origin where
  | header
  | above
  | dotted
  | inline
deriving DecidableEq, Repr

inductive Item where
  | string (text : String)
  | integer (n : Int)
  | boolean (b : Bool)
  | noItems
  | table (origin : Origin) (entries : List (String × Item))

abbrev Entries := List (String × Item)

namespace Entries

def has (es : Entries) (key : String) : Bool := es.any (·.1 == key)

def add (es : Entries) (key : String) (item : Item) : Entries := es ++ [(key, item)]

def replace (es : Entries) (key : String) (item : Item) : Entries :=
  es.map fun e => if e.1 = key then (key, item) else e

/-- A value under a dotted key. Only tables that dotted keys made are added to. -/
def put : List String → String → Item → Entries → Option Entries
  | [], key, item, es => if has es key then none else some (add es key item)
  | k :: ks, key, item, es =>
    match es.lookup k with
    | none => (put ks key item []).map fun inner => add es k (.table .dotted inner)
    | some (.table .dotted inner) =>
      (put ks key item inner).map fun inner => replace es k (.table .dotted inner)
    | some _ => none

/-- The entries under a header. A table gets its own header once. -/
def install : List String → Entries → Entries → Option Entries
  | [], _, _ => none
  | [key], part, es =>
    match es.lookup key with
    | none => some (add es key (.table .header part))
    | some (.table .above inner) =>
      if part.any (has inner ·.1) then none
      else some (replace es key (.table .header (inner ++ part)))
    | some _ => none
  | k :: ks, part, es =>
    match es.lookup k with
    | none => (install ks part []).map fun inner => add es k (.table .above inner)
    | some (.table .inline _) => none
    | some (.table origin inner) =>
      (install ks part inner).map fun inner => replace es k (.table origin inner)
    | some _ => none

end Entries

end Emitter.Toml
