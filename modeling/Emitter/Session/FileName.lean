import Emitter.Path.Lexical
import Emitter.Text.Utf8

/-! File names within the length that file systems take, with and without the number that sets
names apart. -/

namespace Emitter.FileName

/-- The longest file name, in bytes. -/
def maxBytes : Nat := 254

/-- Kept free in a name that was cut, for a number. -/
def reserve : Nat := 21

/-- The longest extension, with its dot, that is kept whole. -/
def maxExtensionBytes : Nat := 64

/-- A name at its last dot. A dot at the beginning and a long extension do not count. -/
def splitName (name : List Char) : List Char × List Char :=
  let extension := (name.reverse.takeWhile (· != '.')).reverse
  let stem := (name.take (name.length - extension.length)).dropLast
  if stem.isEmpty || maxExtensionBytes < Text.Utf8.size extension + 1 then (name, [])
  else (stem, '.' :: extension)

/-- The longest beginning that has at most this many bytes. -/
def cut (budget : Nat) : List Char → List Char
  | [] => []
  | c :: rest => if c.utf8Size ≤ budget then c :: cut (budget - c.utf8Size) rest else []

theorem cut_prefix (budget : Nat) (text : List Char) : cut budget text <+: text := by
  induction text generalizing budget with
  | nil => exact List.prefix_rfl
  | cons c rest ih =>
    simp only [cut]
    split
    · exact List.cons_prefix_cons.2 ⟨rfl, ih _⟩
    · exact List.nil_prefix

theorem size_cut (budget : Nat) (text : List Char) :
    Text.Utf8.size (cut budget text) ≤ budget := by
  induction text generalizing budget with
  | nil => simp [cut, Text.Utf8.size]
  | cons c rest ih =>
    simp only [cut]
    split
    · have := ih (budget - c.utf8Size)
      simp only [Text.Utf8.size, List.map_cons, List.sum_cons] at *
      omega
    · simp [Text.Utf8.size]

def suffix : Option Nat → List Char
  | none => []
  | some n => '_' :: Nat.toDigits 10 n

/-- The bytes left for the stem. A stem that has to be cut leaves room for any number. -/
def budget (stem extension suffix : List Char) : Nat :=
  let room := maxBytes - Text.Utf8.size extension
  room - if room < Text.Utf8.size stem then reserve else Text.Utf8.size suffix

/-- The stem, cut where it is too long, the number and the extension. -/
def fitName (name : List Char) (number : Option Nat) : List Char :=
  let (stem, extension) := splitName name
  let suffix := suffix number
  cut (budget stem extension suffix) stem ++ suffix ++ extension

/-- Fits the last name of a path, if it has one. -/
def fit (p : Path) (number : Option Nat) : Path :=
  match p.fileName? with
  | none => p
  | some name => p.withFileName (String.ofList (fitName name.toList number))

end Emitter.FileName
