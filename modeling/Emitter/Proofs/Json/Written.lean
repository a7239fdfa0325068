import Emitter.Proofs.Json.Numeral
import Emitter.Proofs.Json.Quoted
import Mathlib.Data.List.DropRight

/-! The texts of a JSON value: blanks between its parts, any way to write each string and number.
The reader gets the value back from every one of them, and what is printed is one of them. -/

namespace Emitter.Json

def blanks : List Char := [' ', '\n', '\t', '\r']

def IsBlank (text : List Char) : Prop := ∀ c ∈ text, c ∈ blanks

-- All characters of a list are tried, not all that there are.
instance (text : List Char) : Decidable (IsBlank text) :=
  decidable_of_iff (text.all fun c => decide (c ∈ blanks)) (by simp [IsBlank])

/-- What a part of a text stands for: a value, what is inside the brackets of an array that is not
empty, a member of an object, or what is inside the braces of one that is not empty. -/
inductive Part where
  | value (v : Json)
  | items (vs : List Json)
  | member (m : Option String × Json)
  | members (ms : List (Option String × Json))

inductive Written : Part → List Char → Prop where
  | null : Written (.value .null) ['n', 'u', 'l', 'l']
  | true : Written (.value (.bool true)) ['t', 'r', 'u', 'e']
  | false : Written (.value (.bool false)) ['f', 'a', 'l', 's', 'e']
  | number {n : Number} {t : List Char} (h : n.IsNumeral t) : Written (.value (.number n)) t
  | string {s : String} {t : List Char} (h : IsQuoted s t) : Written (.value (.string (some s))) t
  | emptyArray {b : List Char} (blank : IsBlank b) :
      Written (.value (.array [])) ('[' :: (b ++ [']']))
  | array {vs : List Json} {t : List Char} (h : Written (.items vs) t) :
      Written (.value (.array vs)) ('[' :: (t ++ [']']))
  | emptyObject {b : List Char} (blank : IsBlank b) :
      Written (.value (.object [])) ('\x7b' :: (b ++ ['\x7d']))
  | object {ms : List (Option String × Json)} {t : List Char} (h : Written (.members ms) t) :
      Written (.value (.object ms)) ('\x7b' :: (t ++ ['\x7d']))
  | padded {v : Json} {b t : List Char} (blank : IsBlank b) (h : Written (.value v) t) :
      Written (.value v) (b ++ t)
  | lastItem {v : Json} {t b : List Char} (h : Written (.value v) t) (blank : IsBlank b) :
      Written (.items [v]) (t ++ b)
  | item {v : Json} {vs : List Json} {t b more : List Char} (h : Written (.value v) t)
      (blank : IsBlank b) (later : Written (.items vs) more) :
      Written (.items (v :: vs)) (t ++ (b ++ ',' :: more))
  | member {key : String} {v : Json} {before k between t after : List Char}
      (blankBefore : IsBlank before) (quoted : IsQuoted key k) (blankBetween : IsBlank between)
      (h : Written (.value v) t) (blankAfter : IsBlank after) :
      Written (.member (some key, v)) (before ++ (k ++ (between ++ ':' :: (t ++ after))))
  | lastMember {m : Option String × Json} {t : List Char} (h : Written (.member m) t) :
      Written (.members [m]) t
  | nextMember {m : Option String × Json} {ms : List (Option String × Json)} {t more : List Char}
      (h : Written (.member m) t) (later : Written (.members ms) more) :
      Written (.members (m :: ms)) (t ++ ',' :: more)

/-- The texts of a value, with nothing but blanks around it. -/
def IsText (v : Json) (text : String) : Prop :=
  ∃ t b, Written (.value v) t ∧ IsBlank b ∧ text.toList = t ++ b

namespace Reader

/-! ## Blanks -/

theorem skipBlank_append {b : List Char} (h : IsBlank b) (rest : List Char) :
    skipBlank (b ++ rest) = skipBlank rest := by
  have blank : ∀ c ∈ blanks, (c == ' ' || c == '\n' || c == '\t' || c == '\r') = true :=
    List.all_eq_true.1 rfl
  exact List.dropWhile_append_of_pos fun c mem => blank c (h c mem)

theorem skipBlank_blank {b : List Char} (h : IsBlank b) : skipBlank b = [] := by
  have all := skipBlank_append h []
  rwa [List.append_nil] at all

theorem skipBlank_skipBlank (text : List Char) : skipBlank (skipBlank text) = skipBlank text :=
  List.dropWhile_idempotent _ text

/-- What parts or closes values. -/
def marks : List Char := [',', ']', '\x7d']

/-- A number ends before a blank and before a mark. -/
theorem ends_of_head {text : List Char} (h : ∀ c ∈ text.head?, c ∈ blanks ++ marks) :
    Ends text := by
  have stops : ∀ c ∈ blanks ++ marks,
      decide (Text.digit? c = none ∧ c ≠ '.' ∧ c ≠ 'e' ∧ c ≠ 'E') = true :=
    List.all_eq_true.1 (by decide)
  exact fun c mem => of_decide_eq_true (stops c (h c mem))

theorem ends_blank {b : List Char} (h : IsBlank b) : Ends b :=
  ends_of_head fun c mem => List.mem_append_left _ (h c (List.mem_of_mem_head? mem))

theorem ends_append {b : List Char} (h : IsBlank b) {mark : Char} (known : mark ∈ marks)
    (rest : List Char) : Ends (b ++ mark :: rest) := by
  refine ends_of_head fun c mem => ?_
  cases b with
  | nil =>
    cases mem
    exact List.mem_append_right _ known
  | cons d b =>
    cases mem
    exact List.mem_append_left _ (h c List.mem_cons_self)

/-! ## Values -/

/-- The first character tells a number from all other values. -/
theorem numeral_head {n : Number} {t : List Char} (h : n.IsNumeral t) (rest : List Char) :
    ∃ c more, t ++ rest = c :: more ∧ skipBlank (c :: more) = c :: more ∧
      c ∉ [']', '\x7d', '\x7b', '[', '\"', 'n', 't', 'f'] := by
  have first : ∀ c ∈ ['-', '0', '1', '2', '3', '4', '5', '6', '7', '8', '9'],
      decide ((c == ' ' || c == '\n' || c == '\t' || c == '\r') = false ∧
        c ∉ [']', '\x7d', '\x7b', '[', '\"', 'n', 't', 'f']) = true :=
    List.all_eq_true.1 (by decide)
  obtain ⟨c, more, rfl, mem⟩ := h.head
  obtain ⟨blank, others⟩ := of_decide_eq_true (first c mem)
  refine ⟨c, more ++ rest, rfl, ?_, others⟩
  rw [skipBlank, List.dropWhile_cons, if_neg (by rw [blank]; exact Bool.false_ne_true)]

/-- What is written starts, behind blanks, with a character that closes nothing. -/
theorem opens {p : Part} {t : List Char} (h : Written p t) (rest : List Char) :
    ∃ c more, skipBlank (t ++ rest) = c :: more ∧ c ≠ ']' ∧ c ≠ '\x7d' := by
  induction h generalizing rest with
  | null => exact ⟨'n', _, rfl, by decide, by decide⟩
  | true => exact ⟨'t', _, rfl, by decide, by decide⟩
  | false => exact ⟨'f', _, rfl, by decide, by decide⟩
  | number h =>
    obtain ⟨c, more, eq, skip, others⟩ := numeral_head h rest
    simp at others
    exact ⟨c, more, eq ▸ skip, others.1, others.2.1⟩
  | string h =>
    obtain ⟨body, -, rfl⟩ := h
    exact ⟨'\"', _, rfl, by decide, by decide⟩
  | emptyArray => exact ⟨'[', _, rfl, by decide, by decide⟩
  | array => exact ⟨'[', _, rfl, by decide, by decide⟩
  | emptyObject => exact ⟨'\x7b', _, rfl, by decide, by decide⟩
  | object => exact ⟨'\x7b', _, rfl, by decide, by decide⟩
  | padded blank h ih =>
    rw [List.append_assoc, skipBlank_append blank]
    exact ih rest
  | lastItem h blank ih =>
    rw [List.append_assoc]
    exact ih _
  | item h blank later ih =>
    rw [List.append_assoc]
    exact ih _
  | member before quoted =>
    obtain ⟨body, -, rfl⟩ := quoted
    rw [List.append_assoc, skipBlank_append before]
    exact ⟨'\"', _, rfl, by decide, by decide⟩
  | lastMember h ih => exact ih rest
  | nextMember h later ih =>
    rw [List.append_assoc]
    exact ih _

/-- How the parts are read, with fuel for each of their characters, from a text that goes on behind
them. -/
def Reads : Part → List Char → Prop
  | .value v, t => ∀ fuel rest, 2 * t.length ≤ fuel → Ends rest →
    value fuel (t ++ rest) = some (v, rest)
  | .items vs, t => ∀ fuel rest, 2 * t.length < fuel →
    items fuel (t ++ ']' :: rest) = some (vs, rest)
  | .member m, t => ∀ fuel rest, 2 * t.length ≤ fuel →
    members (fuel + 1) (t ++ ',' :: rest) =
        (members fuel rest).map (fun (ms, rest) => (m :: ms, rest)) ∧
      members (fuel + 1) (t ++ '\x7d' :: rest) = some ([m], rest)
  | .members ms, t => ∀ fuel rest, 2 * t.length < fuel →
    members fuel (t ++ '\x7d' :: rest) = some (ms, rest)

theorem value_skipBlank (fuel : Nat) (text : List Char) :
    value fuel (skipBlank text) = value fuel text := by
  cases fuel with
  | zero => rfl
  | succ fuel => rw [value, value, skipBlank_skipBlank]

theorem items_skipBlank (fuel : Nat) (text : List Char) :
    items fuel (skipBlank text) = items fuel text := by
  cases fuel with
  | zero => rfl
  | succ fuel => rw [items, items, value_skipBlank]

theorem members_skipBlank (fuel : Nat) (text : List Char) :
    members fuel (skipBlank text) = members fuel text := by
  cases fuel with
  | zero => rfl
  | succ fuel => rw [members, members, skipBlank_skipBlank]

theorem value_number {n : Number} {t : List Char} (h : n.IsNumeral t) (fuel : Nat)
    (rest : List Char) :
    value (fuel + 1) (t ++ rest) = (number (t ++ rest)).map fun (n, rest) => (.number n, rest) := by
  obtain ⟨c, more, eq, skip, others⟩ := numeral_head h rest
  simp at others
  obtain ⟨-, -, brace, bracket, quote, n, t, f⟩ := others
  rw [eq, value, skip]
  split <;> simp_all

theorem value_string (fuel : Nat) (text : List Char) :
    value (fuel + 1) ('\"' :: text) = (string text).map fun (s, rest) => (.string s, rest) :=
  rfl

theorem value_array (fuel : Nat) (text : List Char) :
    value (fuel + 1) ('[' :: text) =
      match skipBlank text with
      | ']' :: rest => some (.array [], rest)
      | rest => (items fuel rest).map fun (vs, rest) => (.array vs, rest) :=
  rfl

theorem value_object (fuel : Nat) (text : List Char) :
    value (fuel + 1) ('\x7b' :: text) =
      match skipBlank text with
      | '\x7d' :: rest => some (.object [], rest)
      | rest => (members fuel rest).map fun (ms, rest) => (.object ms, rest) :=
  rfl

theorem value_items (fuel : Nat) {text : List Char} {c : Char} {more : List Char}
    (opening : skipBlank text = c :: more) (open_ : c ≠ ']') :
    value (fuel + 1) ('[' :: text) = (items fuel text).map fun (vs, rest) => (.array vs, rest) := by
  rw [value_array]
  split
  · next closed => exact absurd (List.cons.inj (opening.symm.trans closed)).1 open_
  · rw [items_skipBlank]

theorem value_members (fuel : Nat) {text : List Char} {c : Char} {more : List Char}
    (opening : skipBlank text = c :: more) (open_ : c ≠ '\x7d') :
    value (fuel + 1) ('\x7b' :: text) =
      (members fuel text).map fun (ms, rest) => (.object ms, rest) := by
  rw [value_object]
  split
  · next closed => exact absurd (List.cons.inj (opening.symm.trans closed)).1 open_
  · rw [members_skipBlank]

/-- A member is read, and the mark behind it says whether there are more. -/
theorem members_member {key : String} {v : Json} {before k between t after : List Char}
    (blankBefore : IsBlank before) (quoted : IsQuoted key k) (blankBetween : IsBlank between)
    (blankAfter : IsBlank after) {fuel : Nat} {rest : List Char}
    (read : ∀ mark ∈ marks,
      value fuel (t ++ (after ++ mark :: rest)) = some (v, after ++ mark :: rest)) :
    members (fuel + 1) (before ++ (k ++ (between ++ ':' :: (t ++ after))) ++ ',' :: rest) =
        (members fuel rest).map (fun (ms, rest) => ((some key, v) :: ms, rest)) ∧
      members (fuel + 1) (before ++ (k ++ (between ++ ':' :: (t ++ after))) ++ '\x7d' :: rest) =
        some ([(some key, v)], rest) := by
  have text : ∀ behind, before ++ (k ++ (between ++ ':' :: (t ++ after))) ++ behind =
      before ++ (k ++ (between ++ ':' :: (t ++ (after ++ behind)))) := by simp
  have quote : ∀ text, skipBlank ('\"' :: text) = '\"' :: text := fun _ => rfl
  have colon : ∀ text, skipBlank (':' :: text) = ':' :: text := fun _ => rfl
  have comma : ∀ text, skipBlank (',' :: text) = ',' :: text := fun _ => rfl
  have brace : ∀ text, skipBlank ('\x7d' :: text) = '\x7d' :: text := fun _ => rfl
  obtain ⟨body, rfl, key_⟩ := string_quoted quoted
  constructor
  · rw [text, members]
    simp only [skipBlank_append blankBefore, List.cons_append, quote, key_,
      skipBlank_append blankBetween, colon, read ',' (by decide), skipBlank_append blankAfter, comma]
  · rw [text, members]
    simp only [skipBlank_append blankBefore, List.cons_append, quote, key_,
      skipBlank_append blankBetween, colon, read '\x7d' (by decide), skipBlank_append blankAfter,
      brace]

/-- Every part is read, by induction on how it is written. Each of its own characters pays for two
calls: one for a value, and one for the list that the value is in. -/
theorem reads {p : Part} {t : List Char} (h : Written p t) : Reads p t := by
  induction h with
  | null | true | false =>
    rintro (_ | fuel) rest enough -
    · simp at enough
    · rfl
  | number h =>
    rintro (_ | fuel) rest enough ends
    · obtain ⟨c, more, rfl, -⟩ := h.head
      simp at enough
    · rw [value_number h, number_append h ends]
      rfl
  | string h =>
    rintro (_ | fuel) rest enough -
    · obtain ⟨body, -, rfl⟩ := h
      simp at enough
    · obtain ⟨body, rfl, read⟩ := string_quoted h
      rw [List.cons_append, value_string, read]
      rfl
  | emptyArray blank =>
    rintro (_ | fuel) rest enough -
    · simp at enough
    · rw [List.cons_append, List.append_assoc, List.singleton_append, value_array,
        skipBlank_append blank]
      rfl
  | @array vs t h ih =>
    rintro (_ | fuel) rest enough -
    · simp at enough
    · obtain ⟨c, more, opening, open_, -⟩ := opens h (']' :: rest)
      have read : items fuel (t ++ ']' :: rest) = some (vs, rest) :=
        ih fuel rest (by simp at enough; omega)
      rw [List.cons_append, List.append_assoc, List.singleton_append,
        value_items fuel opening open_, read]
      rfl
  | emptyObject blank =>
    rintro (_ | fuel) rest enough -
    · simp at enough
    · rw [List.cons_append, List.append_assoc, List.singleton_append, value_object,
        skipBlank_append blank]
      rfl
  | @object ms t h ih =>
    rintro (_ | fuel) rest enough -
    · simp at enough
    · obtain ⟨c, more, opening, -, open_⟩ := opens h ('\x7d' :: rest)
      have read : members fuel (t ++ '\x7d' :: rest) = some (ms, rest) :=
        ih fuel rest (by simp at enough; omega)
      rw [List.cons_append, List.append_assoc, List.singleton_append,
        value_members fuel opening open_, read]
      rfl
  | padded blank h ih =>
    intro fuel rest enough ends
    rw [List.append_assoc, ← value_skipBlank, skipBlank_append blank, value_skipBlank]
    exact ih fuel rest (by simp at enough; omega) ends
  | @lastItem v t b h blank ih =>
    rintro (_ | fuel) rest enough
    · simp at enough
    · have ends : Ends (b ++ ']' :: rest) := ends_append blank (by decide) _
      have read := ih fuel _ (by simp at enough; omega) ends
      have bracket : ∀ text, skipBlank (']' :: text) = ']' :: text := fun _ => rfl
      rw [List.append_assoc, items, read]
      simp only [skipBlank_append blank, bracket]
  | @item v vs t b more h blank later ih ihLater =>
    rintro (_ | fuel) rest enough
    · simp at enough
    · have ends : Ends (b ++ ',' :: (more ++ ']' :: rest)) := ends_append blank (by decide) _
      have read := ih fuel _ (by simp at enough; omega) ends
      have others : items fuel (more ++ ']' :: rest) = some (vs, rest) :=
        ihLater fuel rest (by simp at enough; omega)
      have comma : ∀ text, skipBlank (',' :: text) = ',' :: text := fun _ => rfl
      rw [List.append_assoc, List.append_assoc, List.cons_append, items, read]
      simp only [skipBlank_append blank, comma, others, Option.map_some]
  | @member key v before k between t after blankBefore quoted blankBetween h blankAfter ih =>
    intro fuel rest enough
    have read : ∀ mark ∈ marks,
        value fuel (t ++ (after ++ mark :: rest)) = some (v, after ++ mark :: rest) :=
      fun mark known => ih fuel _ (by simp at enough; omega) (ends_append blankAfter known rest)
    exact members_member blankBefore quoted blankBetween blankAfter read
  | lastMember h ih =>
    rintro (_ | fuel) rest enough
    · simp at enough
    · exact (ih fuel rest (by omega)).2
  | @nextMember m ms t more h later ih ihLater =>
    rintro (_ | fuel) rest enough
    · simp at enough
    · have others : members fuel (more ++ '\x7d' :: rest) = some (ms, rest) :=
        ihLater fuel rest (by simp at enough; omega)
      rw [List.append_assoc, List.cons_append, (ih fuel _ (by simp at enough; omega)).1, others]
      rfl

end Reader

/-- A value is read from each of its texts. -/
theorem read_isText {v : Json} {text : String} (h : v.IsText text) : read text = some v := by
  obtain ⟨t, b, written, blank, text_⟩ := h
  have value_ : Reader.value (2 * (t ++ b).length + 1) (t ++ b) = some (v, b) :=
    Reader.reads written _ b (by simp; omega) (Reader.ends_blank blank)
  rw [read, text_, value_]
  exact if_pos (Reader.skipBlank_blank blank)

/-! ## Printing -/

namespace Printer

theorem member_written {v : Json} {t : List Char} (h : Written (.value v) t) (key : String) :
    Written (.member (some key, v)) (member key t) := by
  have nothing : IsBlank [] := nofun
  have entry := Written.member nothing (isQuoted_quote key) nothing h nothing
  simpa [member] using entry

theorem object_written {ms : List (Option String × Json)} {ts : List (List Char)}
    (h : List.Forall₂ (fun m t => Written (.member m) t) ms ts) :
    Written (.value (.object ms)) (object ts) := by
  have inside : ms ≠ [] → Written (.members ms) (ts.intersperse [',']).flatten := by
    induction h with
    | nil => exact fun none => absurd rfl none
    | @cons m t ms ts first later ih =>
      rintro -
      cases later with
      | nil =>
        have last := Written.lastMember first
        simpa using last
      | cons second later =>
        have next := Written.nextMember first (ih (List.cons_ne_nil _ _))
        simpa using next
  cases h with
  | nil => exact .emptyObject (b := []) nofun
  | cons first later => exact .object (inside (List.cons_ne_nil _ _))

end Printer

end Emitter.Json
