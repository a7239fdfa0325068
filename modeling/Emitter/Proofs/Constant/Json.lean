import Emitter.Constant.Json
import Emitter.Proofs.Json.Written
import Emitter.Proofs.Number.Layout

/-! Constants come back from their JSON. A constant that is no float is read from any text that says
its kind and its value, and the text that is printed for it is one of them. -/

namespace Emitter

namespace Json

/-! ## Numbers of 64 bits -/

theorem Reading.absorb_all {n : ℕ} {ds : List ℕ}
    (fits : n * 10 ^ ds.length + Text.number 10 ds ≤ maxWord) :
    absorb n ds = (n * 10 ^ ds.length + Text.number 10 ds, []) := by
  induction ds generalizing n with
  | nil => simp [absorb, Text.number]
  | cons d ds ih =>
    have step : n * 10 ^ (d :: ds).length + Text.number 10 (d :: ds) =
        (n * 10 + d) * 10 ^ ds.length + Text.number 10 ds := by
      rw [← Text.foldl_number, List.foldl_cons, Text.foldl_number]
    have more : n * 10 + d ≤ (n * 10 + d) * 10 ^ ds.length :=
      Nat.le_mul_of_pos_right _ (Nat.pow_pos (by decide))
    rw [step] at fits ⊢
    rw [absorb, if_pos (by omega), ih fits]

/-- A natural number in decimal. -/
def decimal (n : ℕ) : Json := .number ⟨false, General.decimalDigits n, none, none⟩

theorem natural?_decimal {limit n : ℕ} (small : n < limit) (fits : n ≤ Reading.maxWord) :
    (decimal n).natural? limit = some n := by
  have number := General.number_decimalDigits n
  have value : 0 * 10 ^ (General.decimalDigits n).length +
      Text.number 10 (General.decimalDigits n) = n := by rw [number, Nat.zero_mul, Nat.zero_add]
  have all : Reading.absorb 0 (General.decimalDigits n) = _ :=
    Reading.absorb_all (value.trans_le fits)
  rw [value] at all
  simp [natural?, decimal, Number.read, all, small]

theorem decimal_written (n : ℕ) : Written (.value (decimal n)) (Constant.natural n) := by
  have wellFormed : Number.WellFormed ⟨false, General.decimalDigits n, none, none⟩ :=
    ⟨⟨General.decimalDigits_ne_nil n, fun _ => General.lt_of_mem_decimalDigits⟩,
      General.eq_of_head?_decimalDigits, nofun, nofun⟩
  have text : Number.text ⟨false, General.decimalDigits n, none, none⟩ = Constant.natural n := by
    simp [Number.text, Number.fractionText, Number.exponentText, Constant.natural,
      General.toDigits_eq]
  exact .number (text ▸ Number.isNumeral_text wellFormed)

theorem bool_written (b : Bool) : Written (.value (.bool b)) (toString b).toList := by
  cases b with
  | false => exact .false
  | true => exact .true

/-! ## Members -/

/-- The member with a key is found wherever it stands among members with other keys. -/
theorem only_of_perm {key : String} {v : Json} {members others : List (Option String × Json)}
    (perm : members.Perm ((some key, v) :: others))
    (different : ∀ m ∈ others, ∃ k, m.1 = some k ∧ k ≠ key) : only key members = some v := by
  have texts : members.all (·.1.isSome) = true := by
    rw [List.all_eq_true]
    intro m mem
    rcases List.mem_cons.1 (perm.mem_iff.1 mem) with rfl | mem
    · rfl
    · obtain ⟨k, is, -⟩ := different m mem
      rw [is]
      rfl
  have others_ : others.filter (·.1 == some key) = [] := by
    rw [List.filter_eq_nil_iff]
    intro m mem
    obtain ⟨k, is, ne⟩ := different m mem
    simp [is, ne]
  have found : members.filter (·.1 == some key) = [(some key, v)] := by
    rw [← List.perm_singleton]
    simpa [others_] using perm.filter (·.1 == some key)
  rw [only, valuesOf, if_pos texts, found]
  rfl

end Json

namespace IntegerConstant

-- Powers are those of the core library, as in the reader.
attribute [local instance (high)] instPowNat

def members (v : IntegerConstant) : List (Option String × Json) :=
  [(some "size_bits", .decimal v.sizeBits.toNat), (some "is_signed", .bool v.signed),
    (some "bits", .decimal v.bits.toNat)]

/-- The members of a constant in any order, and any others among them. -/
def IsObject (v : IntegerConstant) (found : List (Option String × Json)) : Prop :=
  ∃ extra, found.Perm (v.members ++ extra) ∧
    ∀ m ∈ extra, ∃ key, m.1 = some key ∧ key ∉ ["size_bits", "is_signed", "bits"]

theorem ofJson?_object {v : IntegerConstant} {found : List (Option String × Json)}
    (h : v.IsObject found) : ofJson? (.object found) = some v := by
  obtain ⟨extra, perm, unknown⟩ := h
  have other : ∀ key ∈ ["size_bits", "is_signed", "bits"], ∀ m ∈ extra,
      ∃ k, m.1 = some k ∧ k ≠ key := by
    intro key known m mem
    obtain ⟨k, is, new⟩ := unknown m mem
    exact ⟨k, is, fun same => new (same ▸ known)⟩
  have size : Json.only "size_bits" found = some (.decimal v.sizeBits.toNat) :=
    Json.only_of_perm perm (List.forall_mem_cons.2 ⟨⟨_, rfl, by decide⟩,
      List.forall_mem_cons.2 ⟨⟨_, rfl, by decide⟩, other _ (by decide)⟩⟩)
  have signed : Json.only "is_signed" found = some (.bool v.signed) :=
    Json.only_of_perm (perm.trans (@List.perm_middle _ _ [_] _))
      (List.forall_mem_cons.2 ⟨⟨_, rfl, by decide⟩,
        List.forall_mem_cons.2 ⟨⟨_, rfl, by decide⟩, other _ (by decide)⟩⟩)
  have bits : Json.only "bits" found = some (.decimal v.bits.toNat) :=
    Json.only_of_perm (perm.trans (@List.perm_middle _ _ [_, _] _))
      (List.forall_mem_cons.2 ⟨⟨_, rfl, by decide⟩,
        List.forall_mem_cons.2 ⟨⟨_, rfl, by decide⟩, other _ (by decide)⟩⟩)
  have sizeFits : v.sizeBits.toNat < 2 ^ 32 := v.sizeBits.toNat_lt
  have bitsFit : v.bits.toNat < 2 ^ 64 := v.bits.toNat_lt
  have readSize : (Json.decimal v.sizeBits.toNat).natural? (2 ^ 32) = some v.sizeBits.toNat :=
    Json.natural?_decimal sizeFits (by unfold Json.Reading.maxWord; omega)
  have readBits : (Json.decimal v.bits.toNat).natural? (2 ^ 64) = some v.bits.toNat :=
    Json.natural?_decimal bitsFit (by unfold Json.Reading.maxWord; omega)
  have parts : ofParts (.decimal v.sizeBits.toNat) (.bool v.signed) (.decimal v.bits.toNat) =
      some ⟨UInt32.ofNat v.sizeBits.toNat, v.signed, UInt64.ofNat v.bits.toNat⟩ := by
    rw [ofParts, readSize, readBits]
    rfl
  simp [ofJson?, size, signed, bits, parts]

end IntegerConstant

namespace Constant

/-! ## Constants -/

/-- The two floats, whose text is not exact. -/
def isFloat : Constant → Bool
  | float32 _ => true
  | float64 _ => true
  | _ => false

/-- The kind of a constant that is no float, with what its value may be. -/
inductive IsContent : Constant → String → Json → Prop where
  | integer {v : IntegerConstant} {found : List (Option String × Json)} (h : v.IsObject found) :
      IsContent (integer v) "integer" (.object found)
  | string (text : String) : IsContent (string text) "string" (.string (some text))
  | unsupported (message : String) :
      IsContent (unsupported message) "unsupported" (.string (some message))
  | nullPointer : IsContent nullPointer "null_pointer" .null

/-- The texts of a constant: its kind and its value in either order. A value that stands first has
to be one that can be held until the kind is known, and a null pointer needs no value. -/
inductive IsJson (c : Constant) (text : String) : Prop where
  | kindFirst {kind : String} {value : Json} (content : c.IsContent kind value)
      (h : (Json.object
        [(some "kind", .string (some kind)), (some "value", value)]).IsText text)
  | valueFirst {kind : String} {value : Json} (content : c.IsContent kind value)
      (held : value.canBeHeld = true)
      (h : (Json.object
        [(some "value", value), (some "kind", .string (some kind))]).IsText text)
  | kindAlone (null : c = nullPointer)
      (h : (Json.object [(some "kind", .string (some "null_pointer"))]).IsText text)

theorem ofKind_content {c : Constant} {kind : String} {value : Json} (h : c.IsContent kind value) :
    ofKind kind (some value) = some c := by
  cases h with
  | integer h => simp [ofKind, IntegerConstant.ofJson?_object h]
  | string | unsupported | nullPointer => rfl

theorem read_isJson {c : Constant} {text : String} (h : c.IsJson text) : read text = some c := by
  cases h with
  | kindFirst content h =>
    rw [read, Json.read_isText h]
    simp [ofJson?, Json.only, Json.valuesOf, kind?, isHeld, ofKind_content content]
  | valueFirst content held h =>
    rw [read, Json.read_isText h]
    simp [ofJson?, Json.only, Json.valuesOf, kind?, isHeld, held, ofKind_content content]
  | kindAlone null h =>
    rw [read, Json.read_isText h, null]
    rfl

/-! ## Printing -/

theorem isText_object {ms : List (Option String × Json)} {ts : List (List Char)}
    (h : List.Forall₂ (fun m t => Json.Written (.member m) t) ms ts) :
    (Json.object ms).IsText (String.ofList (Json.Printer.object ts)) :=
  ⟨_, [], Json.Printer.object_written h, nofun, by simp⟩

theorem tagged_isJson {c : Constant} {kind : String} {value : Json} {t : List Char}
    (content : c.IsContent kind value) (h : Json.Written (.value value) t) :
    c.IsJson (String.ofList (tagged kind t)) :=
  .kindFirst content <| isText_object <|
    .cons (Json.Printer.member_written (.string (Json.Printer.isQuoted_quote kind)) "kind") <|
      .cons (Json.Printer.member_written h "value") .nil

/-- What is printed for a constant is one of its texts. -/
theorem json?_isJson {c : Constant} (exact_ : c.isFloat = false) :
    ∃ out, c.json? = some out ∧ c.IsJson out := by
  cases c with
  | integer v =>
    have members : Json.Written (.value (.object v.members)) (Json.Printer.object [
        Json.Printer.member "size_bits" (natural v.sizeBits.toNat),
        Json.Printer.member "is_signed" (toString v.signed).toList,
        Json.Printer.member "bits" (natural v.bits.toNat)]) :=
      Json.Printer.object_written <|
        .cons (Json.Printer.member_written (Json.decimal_written _) _) <|
          .cons (Json.Printer.member_written (Json.bool_written _) _) <|
            .cons (Json.Printer.member_written (Json.decimal_written _) _) .nil
    have object : v.IsObject v.members := ⟨[], by simp, nofun⟩
    exact ⟨_, rfl, tagged_isJson (.integer object) members⟩
  | string text =>
    exact ⟨_, rfl, tagged_isJson (.string text) (.string (Json.Printer.isQuoted_quote text))⟩
  | unsupported message =>
    exact ⟨_, rfl,
      tagged_isJson (.unsupported message) (.string (Json.Printer.isQuoted_quote message))⟩
  | nullPointer =>
    exact ⟨_, rfl, .kindAlone rfl <| isText_object <|
      .cons (Json.Printer.member_written (.string (Json.Printer.isQuoted_quote _)) "kind") .nil⟩
  | float32 | float64 => cases exact_

/-- What is printed for a constant that is no float says its kind and its value, and is read as it
was. So is every other text that says the same: members in either order, with blanks, escapes and
unknown fields. Whatever text a constant was read from, what is printed for it is read as the same
constant, and printed as the same text. -/
theorem json_comes_back :
    (∀ c : Constant, c.isFloat = false →
        ∃ out, c.json? = some out ∧ c.IsJson out ∧ read out = some c) ∧
      (∀ (c : Constant) (text : String), c.IsJson text → read text = some c) ∧
      ∀ (text : String) (c : Constant), read text = some c → c.isFloat = false →
        ∃ out, (read text).bind json? = some out ∧ read out = read text ∧
          (read out).bind json? = some out := by
  have back : ∀ c : Constant, c.isFloat = false →
      ∃ out, c.json? = some out ∧ c.IsJson out ∧ read out = some c := by
    intro c exact_
    obtain ⟨out, printed, isJson⟩ := json?_isJson exact_
    exact ⟨out, printed, isJson, read_isJson isJson⟩
  refine ⟨back, fun c text => read_isJson, ?_⟩
  intro text c found exact_
  obtain ⟨out, printed, -, again⟩ := back c exact_
  have reprinted : (some c).bind json? = some out := printed
  exact ⟨out, found ▸ reprinted, again.trans found.symm, again ▸ reprinted⟩

/-- The value before the kind, blanks, and an escape in a key. -/
theorem json_comes_back_escaped :
    nullPointer.IsJson "\x7b\"value\":\tnull ,\"k\\u0069nd\":\"null_pointer\"\x7d\n" ∧
      read "\x7b\"value\":\tnull ,\"k\\u0069nd\":\"null_pointer\"\x7d\n" = some nullPointer ∧
      (∃ out, (string "\"\\\x01😀").json? = some out ∧ (string "\"\\\x01😀").IsJson out ∧
        read out = some (string "\"\\\x01😀")) ∧
      ∃ out, (read "[\"unsupported\",\"\\uD83D\\uDE00\"]").bind json? = some out ∧
        read out = read "[\"unsupported\",\"\\uD83D\\uDE00\"]" ∧
        (read out).bind json? = some out := by
  have nothing : Json.IsBlank [] := nofun
  have escaped : Json.IsCharacter 'i' ['\\', 'u', '0', '0', '6', '9'] :=
    .single (show Text.Utf16.units 'i' = [105] by decide) ⟨rfl, by decide⟩
  have key : Json.IsQuoted "kind"
      ['\"', 'k', '\\', 'u', '0', '0', '6', '9', 'n', 'd', '\"'] :=
    ⟨_, .cons (.plain (by decide) (by decide) (by decide)) <| .cons escaped <|
      .cons (.plain (by decide) (by decide) (by decide)) <|
        .cons (.plain (by decide) (by decide) (by decide)) .nil, rfl⟩
  have space : Json.IsBlank [' '] := by decide
  have value : Json.Written (.member (some "value", .null)) _ :=
    .member nothing (Json.Printer.isQuoted_quote "value") nothing
      (.padded (b := ['\t']) (by decide) .null) space
  have kind : Json.Written (.member (some "kind", .string (some "null_pointer"))) _ :=
    .member nothing key nothing (.string (Json.Printer.isQuoted_quote "null_pointer")) nothing
  have isJson : nullPointer.IsJson
      "\x7b\"value\":\tnull ,\"k\\u0069nd\":\"null_pointer\"\x7d\n" :=
    .valueFirst .nullPointer rfl
      ⟨_, ['\n'], .object (.nextMember value (.lastMember kind)), by decide, by decide⟩
  refine ⟨isJson, json_comes_back.2.1 _ _ isJson, json_comes_back.1 _ rfl,
    json_comes_back.2.2 _ (unsupported "😀") (by decide +kernel) rfl⟩

end Constant

end Emitter
