import Emitter.Proofs.Constant.Strings

/-! Which records are constants. A record is rejected for its kind, for a payload that its kind does
not have, for the width of a float, or for a string of an unknown encoding or without the bytes that
its buffer declares. What is not rejected is read as its kind says (`decode_accepts`). -/

namespace Emitter

/-- Numbers have bits and strings a buffer; the other kinds may have either. -/
def RecordKind.Fits : RecordKind → Payload → Prop
  | unsignedInteger, .buffer _ | signedInteger, .buffer _ | floatingPoint, .buffer _ => False
  | string, .bits _ => False
  | _, _ => True

namespace RecordKind

theorem ofTag_eq_unknown_iff (tag : UInt32) : ofTag tag = unknown ↔ tag = 0 := by
  rw [← UInt32.toNat_inj]
  unfold ofTag
  generalize tag.toNat = n
  match n with
  | 0 | 1 | 2 | 3 | 4 | 5 => simp
  | n + 6 => simp

theorem ofTag_eq_other_iff (tag other : UInt32) :
    ofTag tag = .other other ↔ 5 < tag.toNat ∧ other = tag := by
  unfold ofTag
  generalize tag.toNat = n
  match n with
  | 0 | 1 | 2 | 3 | 4 | 5 => simp
  | n + 6 => simp [eq_comm]

end RecordKind

namespace Bytes

/-- The number of bytes that a buffer declares. -/
def declared (buffer : Bytes) : Nat := toNat (buffer.take 8)

/-- As many of the bytes behind the length. -/
def declaredBytes (buffer : Bytes) : Bytes := (buffer.drop 8).take buffer.declared

theorem content_eq_ok {buffer : Bytes}
    (h : ¬ (buffer.length < 8 ∨ buffer.length - 8 < buffer.declared)) :
    buffer.content = .ok buffer.declaredBytes := by
  have rest : (buffer.drop 8).length = buffer.length - 8 := List.length_drop
  have present : toNat (buffer.take 8) ≤ (buffer.drop 8).length := by
    unfold declared at h
    omega
  rw [content, if_neg fun short => h (.inl short)]
  exact if_pos present

theorem content_eq_error {buffer : Bytes}
    (h : buffer.length < 8 ∨ buffer.length - 8 < buffer.declared) :
    ∃ e, buffer.content = .error e := by
  have rest : (buffer.drop 8).length = buffer.length - 8 := List.length_drop
  rw [content]
  split
  · exact ⟨_, rfl⟩
  · next long =>
    have missing : ¬ toNat (buffer.take 8) ≤ (buffer.drop 8).length := by
      unfold declared at h
      omega
    exact ⟨_, if_neg missing⟩

end Bytes

namespace StringEncoding

/-- The number of an encoding, without the mark of wide characters. -/
def number (tag : UInt32) : Nat := (tag &&& ~~~wideBit).toNat

theorem ofTag?_eq_none_iff (tag : UInt32) : ofTag? tag = none ↔ 4 < number tag := by
  unfold ofTag? number
  generalize (tag &&& ~~~wideBit).toNat = n
  match n with
  | 0 | 1 | 2 | 3 | 4 => simp
  | n + 5 => simp

theorem number_of_wide {tag : UInt32} (h : ofTag? tag = some wide) : number tag = 4 := by
  unfold ofTag? at h
  unfold number
  split at h <;> simp_all

theorem ofTag?_congr {tag other : UInt32} (h : number tag = number other) :
    ofTag? tag = ofTag? other := by
  unfold number at h
  unfold ofTag?
  rw [h]

/-- Only wide characters have a width of their own. -/
theorem decode_width {encoding : StringEncoding} {width other : WideWidth}
    (h : encoding = wide → width = other) (bytes : Bytes) :
    encoding.decode width bytes = encoding.decode other bytes := by
  cases encoding with
  | wide => rw [h rfl]
  | _ => rfl

end StringEncoding

namespace Record

/-- Why a record is no constant. -/
inductive IsRejected (r : Record) : Prop
  | unknown : r.kind = .unknown → IsRejected r
  | unrecognized (tag : UInt32) : r.kind = .other tag → IsRejected r
  | payload : ¬ r.kind.Fits r.payload → IsRejected r
  | floatWidth : r.kind = .floatingPoint → r.subKind ≠ 32 → r.subKind ≠ 64 → IsRejected r
  | encoding : r.kind = .string → 4 < StringEncoding.number r.subKind → IsRejected r
  | missing (buffer : Bytes) : r.kind = .string → r.payload = .buffer buffer →
      buffer.length < 8 ∨ buffer.length - 8 < buffer.declared → IsRejected r

theorem constant?_float (subKind : UInt32) (bits : UInt64) (width : WideWidth) :
    (Record.mk .floatingPoint subKind (.bits bits)).constant? width =
      if subKind = 32 then .ok (.float32 bits.toUInt32)
      else if subKind = 64 then .ok (.float64 bits)
      else .error (.floatWidth subKind) :=
  rfl

theorem constant?_string (tag : UInt32) (buffer : Bytes) (width : WideWidth) :
    (Record.mk .string tag (.buffer buffer)).constant? width =
      match StringEncoding.ofTag? tag with
      | none => .error (.stringEncoding tag)
      | some encoding => buffer.content.map fun bytes =>
        .string (String.ofList (encoding.decode width bytes)) :=
  rfl

/-- A rejected record is no constant, whatever the width of wide characters. -/
theorem constant?_of_isRejected {r : Record} (h : r.IsRejected) (width : WideWidth) :
    ∃ e, r.constant? width = .error e := by
  obtain ⟨kind, subKind, payload⟩ := r
  cases h with
  | unknown is =>
    obtain rfl : kind = .unknown := is
    unfold constant?
    dsimp only
    split <;> exact ⟨_, rfl⟩
  | unrecognized tag is =>
    obtain rfl : kind = .other tag := is
    exact ⟨_, rfl⟩
  | payload misfit =>
    cases kind <;> cases payload <;> first | exact ⟨_, rfl⟩ | exact absurd trivial misfit
  | floatWidth is single double =>
    obtain rfl : kind = .floatingPoint := is
    cases payload with
    | buffer => exact ⟨_, rfl⟩
    | bits value => exact ⟨_, by rw [constant?_float, if_neg single, if_neg double]⟩
  | encoding is beyond =>
    obtain rfl : kind = .string := is
    cases payload with
    | bits => exact ⟨_, rfl⟩
    | buffer buffer =>
      exact ⟨_, by rw [constant?_string, (StringEncoding.ofTag?_eq_none_iff subKind).2 beyond]⟩
  | missing buffer is has missing =>
    obtain rfl : kind = .string := is
    obtain rfl : payload = .buffer buffer := has
    obtain ⟨e, error⟩ := Bytes.content_eq_error missing
    rw [constant?_string, error]
    split <;> exact ⟨_, rfl⟩

/-- A string that is not rejected is the declared bytes in its encoding. -/
theorem decode_accepted {tag : UInt32} {buffer : Bytes}
    (h : ¬ (Record.mk .string tag (.buffer buffer)).IsRejected) :
    ∃ encoding, StringEncoding.ofTag? tag = some encoding ∧ ∀ width,
      (Record.mk .string tag (.buffer buffer)).decode width =
        .string (String.ofList (encoding.decode width buffer.declaredBytes)) := by
  have present : ¬ (buffer.length < 8 ∨ buffer.length - 8 < buffer.declared) := fun missing =>
    h (.missing buffer rfl rfl missing)
  have known : StringEncoding.ofTag? tag ≠ none := fun none =>
    h (.encoding rfl ((StringEncoding.ofTag?_eq_none_iff tag).1 none))
  obtain ⟨encoding, tagged⟩ := Option.ne_none_iff_exists'.1 known
  exact ⟨encoding, tagged, fun width => decode_string tagged (Bytes.content_eq_ok present)⟩

theorem decode_of_isRejected {r : Record} (h : r.IsRejected) (width : WideWidth) :
    ∃ message, r.decode width = .unsupported message := by
  obtain ⟨e, error⟩ := constant?_of_isRejected h width
  exact ⟨e.message, by rw [decode, error]⟩

/-- What is not rejected is a constant. -/
theorem isSupported_decode {r : Record} (h : ¬ r.IsRejected) (width : WideWidth) :
    (r.decode width).isSupported = true := by
  obtain ⟨kind, subKind, payload⟩ := r
  have fits : kind.Fits payload := Classical.byContradiction fun misfit => h (.payload misfit)
  cases kind with
  | unknown => exact absurd (.unknown rfl) h
  | other tag => exact absurd (.unrecognized tag rfl) h
  | nullPointer => rfl
  | unsignedInteger =>
    cases payload with
    | bits => rfl
    | buffer => exact absurd fits id
  | signedInteger =>
    cases payload with
    | bits => rfl
    | buffer => exact absurd fits id
  | floatingPoint =>
    cases payload with
    | bits value =>
      by_cases single : subKind = 32
      · rw [decode, constant?_float, if_pos single]
        rfl
      by_cases double : subKind = 64
      · rw [decode, constant?_float, if_neg single, if_pos double]
        rfl
      · exact absurd (.floatWidth rfl single double) h
    | buffer => exact absurd fits id
  | string =>
    cases payload with
    | bits => exact absurd fits id
    | buffer buffer =>
      obtain ⟨encoding, -, read⟩ := decode_accepted h
      rw [read]
      rfl

theorem isSupported_decode_iff (r : Record) (width : WideWidth) :
    (r.decode width).isSupported = true ↔ ¬ r.IsRejected := by
  refine ⟨fun supported rejected => ?_, fun accepted => isSupported_decode accepted width⟩
  obtain ⟨message, unsupported⟩ := decode_of_isRejected rejected width
  rw [unsupported] at supported
  exact Bool.false_ne_true supported

theorem decode_eq_unsupported_iff (r : Record) (width : WideWidth) :
    (∃ message, r.decode width = .unsupported message) ↔ r.IsRejected := by
  refine ⟨fun ⟨message, unsupported⟩ => ?_, fun rejected => decode_of_isRejected rejected width⟩
  refine Classical.byContradiction fun accepted => ?_
  have supported := (isSupported_decode_iff r width).2 accepted
  rw [unsupported] at supported
  exact Bool.false_ne_true supported

/-- A part of a message in the middle. -/
theorem infix_message (before name after : String) :
    name.toList <:+: (before ++ name ++ after).toList := by
  rw [String.toList_append, String.toList_append]
  exact List.infix_append _ _ _

/-- The name of what could not be classified, or its number if it has no name. -/
def foreignName (subKind : UInt32) : String :=
  ((ForeignKind.ofTag? subKind).map ForeignKind.name).getD (toString subKind)

theorem decode_unknown (subKind : UInt32) (payload : Payload) (width : WideWidth) :
    ∃ message, (Record.mk .unknown subKind payload).decode width = .unsupported message ∧
      (foreignName subKind).toList <:+: message.toList := by
  unfold decode constant? foreignName
  dsimp only
  cases ForeignKind.ofTag? subKind with
  | some foreign => exact ⟨_, rfl, infix_message _ _ _⟩
  | none =>
    have numbered :=
      infix_message "Unsupported constant of unknown foreign kind " (toString subKind) ""
    rw [String.append_empty] at numbered
    exact ⟨_, rfl, numbered⟩

theorem decode_other (tag subKind : UInt32) (payload : Payload) (width : WideWidth) :
    ∃ message, (Record.mk (.other tag) subKind payload).decode width = .unsupported message ∧
      (toString tag).toList <:+: message.toList := by
  have named := infix_message "Unsupported constant kind " (RecordKind.other tag).name ""
  rw [String.append_empty] at named
  exact ⟨_, rfl, (infix_message "Other(" (toString tag) ")").trans named⟩

/-- Strings of one encoding with the same declared bytes are one constant. -/
theorem decode_congr {tag tag' : UInt32} {buffer buffer' : Bytes} {width width' : WideWidth}
    (accepted : ¬ (Record.mk .string tag (.buffer buffer)).IsRejected)
    (accepted' : ¬ (Record.mk .string tag' (.buffer buffer')).IsRejected)
    (number : StringEncoding.number tag = StringEncoding.number tag')
    (wide : StringEncoding.number tag = 4 → width = width')
    (bytes : buffer.declaredBytes = buffer'.declaredBytes) :
    ∃ text, (Record.mk .string tag (.buffer buffer)).decode width = .string text ∧
      (Record.mk .string tag' (.buffer buffer')).decode width' = .string text := by
  obtain ⟨encoding, tagged, read⟩ := decode_accepted accepted
  obtain ⟨encoding', tagged', read'⟩ := decode_accepted accepted'
  obtain rfl : encoding = encoding' := by
    rw [StringEncoding.ofTag?_congr number, tagged'] at tagged
    exact (Option.some.inj tagged).symm
  refine ⟨_, read width, ?_⟩
  rw [read', bytes, StringEncoding.decode_width fun is => ?_]
  subst is
  exact (wide (StringEncoding.number_of_wide tagged)).symm

/-- A record is unsupported exactly if it is rejected, and only the kinds that tags up to five name
are recognized. What is not rejected keeps its data: integers their width, signedness and all bits,
floats the bits of their width; a null pointer has none. A string depends on nothing but its
encoding, the width of wide characters if that is the encoding, and the declared bytes. Where the
kind is the reason, the message names it. -/
theorem decode_accepts :
    (∀ (r : Record) (width : WideWidth),
      (∃ message, r.decode width = .unsupported message) ↔ r.IsRejected) ∧
    (∀ tag, (RecordKind.ofTag tag = .unknown ↔ tag = 0) ∧
      ∀ other, RecordKind.ofTag tag = .other other ↔ 5 < tag.toNat ∧ other = tag) ∧
    (∀ (subKind : UInt32) (bits : UInt64) (width : WideWidth),
      (Record.mk .unsignedInteger subKind (.bits bits)).decode width =
          .integer ⟨subKind, false, bits⟩ ∧
        (Record.mk .signedInteger subKind (.bits bits)).decode width =
          .integer ⟨subKind, true, bits⟩ ∧
        (Record.mk .floatingPoint 32 (.bits bits)).decode width =
          .float32 (UInt32.ofNat (bits.toNat % UInt32.size)) ∧
        (Record.mk .floatingPoint 64 (.bits bits)).decode width = .float64 bits) ∧
    (∀ (subKind : UInt32) (payload : Payload) (width : WideWidth),
      (Record.mk .nullPointer subKind payload).decode width = .nullPointer) ∧
    (∀ (tag tag' : UInt32) (buffer buffer' : Bytes) (width width' : WideWidth),
      ¬ (Record.mk .string tag (.buffer buffer)).IsRejected →
      ¬ (Record.mk .string tag' (.buffer buffer')).IsRejected →
      StringEncoding.number tag = StringEncoding.number tag' →
      (StringEncoding.number tag = 4 → width = width') →
      buffer.declaredBytes = buffer'.declaredBytes →
      ∃ text, (Record.mk .string tag (.buffer buffer)).decode width = .string text ∧
        (Record.mk .string tag' (.buffer buffer')).decode width' = .string text) ∧
    ∀ (tag subKind : UInt32) (payload : Payload) (width : WideWidth),
      (∃ message, (Record.mk .unknown subKind payload).decode width = .unsupported message ∧
        (foreignName subKind).toList <:+: message.toList) ∧
      ∃ message, (Record.mk (.other tag) subKind payload).decode width = .unsupported message ∧
        (toString tag).toList <:+: message.toList := by
  refine ⟨decode_eq_unsupported_iff, fun tag => ⟨RecordKind.ofTag_eq_unknown_iff tag,
    RecordKind.ofTag_eq_other_iff tag⟩, fun subKind bits width => ⟨rfl, rfl, ?_, rfl⟩,
    fun subKind payload width => rfl, fun tag tag' buffer buffer' width width' => decode_congr,
    fun tag subKind payload width => ⟨decode_unknown subKind payload width,
      decode_other tag subKind payload width⟩⟩
  have low : bits.toUInt32 = UInt32.ofNat (bits.toNat % UInt32.size) := by
    rw [← UInt32.toNat_inj]
    simp
  rw [← low]
  rfl

/-- UTF-16 with and without the mark of wide characters, for targets of different widths, with
different bytes behind the declared ones; and a length that is near the largest. -/
theorem decode_accepts_pair :
    let buffer := lengthPrefixed [0x3D, 0xD8, 0x00, 0xDE] ++ [0x41]
    let other := lengthPrefixed [0x3D, 0xD8, 0x00, 0xDE]
    let r : Record := ⟨.string, 0x82, .buffer buffer⟩
    let s : Record := ⟨.string, 2, .buffer other⟩
    let endless : Record := ⟨.string, 2, .buffer (List.replicate 8 0xFF ++ [0x41])⟩
    (¬ r.IsRejected ∧ ¬ s.IsRejected ∧ buffer.declaredBytes = other.declaredBytes) ∧
      r.decode .bits32 = s.decode .bits16 ∧ endless.IsRejected := by
  intro buffer other r s endless
  obtain ⟨rejected, -, -, -, strings, -⟩ := decode_accepts
  have readable : ¬ r.IsRejected :=
    (isSupported_decode_iff r .bits32).1 (by decide)
  have readable' : ¬ s.IsRejected :=
    (isSupported_decode_iff s .bits16).1 (by decide)
  have bytes : buffer.declaredBytes = other.declaredBytes := by decide
  obtain ⟨text, read, read'⟩ := strings 0x82 2 buffer other .bits32 .bits16 readable readable'
    (by decide) (by decide) bytes
  have short : endless.decode .bits16 = .unsupported
      "Unsupported string constant: declared 18446744073709551615 bytes but only 1 are present" := by
    decide
  exact ⟨⟨readable, readable', bytes⟩, read.trans read'.symm,
    (rejected endless .bits16).1 ⟨_, short⟩⟩

end Record

end Emitter
