import Emitter.Constant.Decode
import Emitter.Format
import Emitter.Proofs.Text.Units
import Emitter.Proofs.Text.Utf8

/-! String records. Every encoding that a tag can name is read back as it was written: the bytes of
a text behind their length give the text, with or without the mark of wide characters and whatever
follows in the buffer. -/

namespace Emitter

theorem Text.Utf8.encode_toList (text : String) :
    encode text.toList = text.toByteArray.data.toList := by
  rw [← String.utf8Encode_toList, List.utf8Encode, List.toList_data_toByteArray, encode]

/-- The length that a buffer declares is taken from it, and what stands behind is ignored. -/
theorem Bytes.content_lengthPrefixed {bytes : Bytes} (counted : bytes.length < UInt64.size)
    (more : Bytes) : (lengthPrefixed bytes ++ more).content = .ok bytes := by
  have length : (ofNat 8 bytes.length).length = 8 := length_ofNat 8 _
  have declared : toNat (ofNat 8 bytes.length) = bytes.length := by
    rw [toNat_ofNat]
    exact Nat.mod_eq_of_lt counted
  have parts : lengthPrefixed bytes ++ more = ofNat 8 bytes.length ++ (bytes ++ more) := by
    rw [lengthPrefixed, List.append_assoc]
  rw [content, parts, List.take_left' length, List.drop_left' length, declared]
  simp [length]

namespace StringEncoding

/-- The tag of an encoding, without the mark of wide characters. -/
def tag : StringEncoding → UInt32
  | ascii => 0
  | utf8 => 1
  | utf16 => 2
  | utf32 => 3
  | wide => 4

/-- The texts that an encoding has bytes for. -/
def Covers (text : String) : StringEncoding → Prop
  | ascii => ∀ c ∈ text.toList, c.toNat < 128
  | _ => True

/-- The bytes of a text. Files hold the same ones, behind a mark in the case of UTF-16. -/
def bytes (width : WideWidth) (text : String) : StringEncoding → Bytes
  | ascii => Text.Ascii.encode text.toList
  | utf8 => TextEncoding.utf8.encode text
  | utf16 => (TextEncoding.utf16Le.encode text).drop 2
  | utf32 => Text.Utf32.encode text.toList
  | wide => match width with
    | .bits16 => (TextEncoding.utf16Le.encode text).drop 2
    | .bits32 => Text.Utf32.encode text.toList

theorem ofTag?_tag (encoding : StringEncoding) (isWide : Bool) :
    ofTag? (if isWide then encoding.tag ||| wideBit else encoding.tag) = some encoding := by
  cases encoding <;> cases isWide <;> rfl

theorem decode_bytes {encoding : StringEncoding} {text : String} (covers : encoding.Covers text)
    (width : WideWidth) : encoding.decode width (encoding.bytes width text) = text.toList := by
  cases encoding with
  | ascii => exact Text.Ascii.decode_encode covers
  | utf8 => exact Text.Utf8.decode_encode text.toList
  | utf16 => exact Text.Utf16.decode_encode text.toList
  | utf32 => exact Text.Utf32.decode_encode text.toList
  | wide =>
    cases width with
    | bits16 => exact Text.Utf16.decode_encode text.toList
    | bits32 => exact Text.Utf32.decode_encode text.toList

end StringEncoding

namespace Record

theorem decode_string {width : WideWidth} {tag : UInt32} {buffer content : Bytes}
    {encoding : StringEncoding} (tagged : StringEncoding.ofTag? tag = some encoding)
    (found : buffer.content = .ok content) :
    (Record.mk .string tag (.buffer buffer)).decode width =
      .string (String.ofList (encoding.decode width content)) := by
  simp [decode, constant?, string?, tagged, found, Except.map]

/-- A text that was encoded for a record is read back from it, as far as the length of the bytes fits
the eight that declare it. The encodings of files are those of records, behind their marks. -/
theorem decode_lengthPrefixed (text : String) :
    (∀ (encoding : StringEncoding) (width : WideWidth) (isWide : Bool) (more : Bytes),
      encoding.Covers text → (encoding.bytes width text).length < UInt64.size →
      (Record.mk .string (if isWide then encoding.tag ||| StringEncoding.wideBit else encoding.tag)
        (.buffer (lengthPrefixed (encoding.bytes width text) ++ more))).decode width =
          .string text) ∧
      TextEncoding.utf8.encode text = text.toByteArray.data.toList ∧
      TextEncoding.utf8Bom.encode text = [0xEF, 0xBB, 0xBF] ++ text.toByteArray.data.toList ∧
      ∀ width, TextEncoding.utf16Le.encode text =
        [0xFF, 0xFE] ++ StringEncoding.utf16.bytes width text := by
  have plain : Text.Utf8.encode text.toList = text.toByteArray.data.toList :=
    Text.Utf8.encode_toList text
  refine ⟨fun encoding width isWide more covers counted => ?_, plain, ?_, fun width => rfl⟩
  · rw [decode_string (encoding.ofTag?_tag isWide) (Bytes.content_lengthPrefixed counted more),
      StringEncoding.decode_bytes covers width, String.ofList_toList]
  · rw [TextEncoding.encode, plain]

/-- A surrogate pair after a byte order mark that is text, in a marked record with bytes behind. -/
theorem decode_lengthPrefixed_pair :
    let text := "\ufeff😀"
    let bytes : Bytes := [0xFF, 0xFE, 0x3D, 0xD8, 0x00, 0xDE]
    (StringEncoding.wide.Covers text ∧ (StringEncoding.wide.bytes .bits16 text).length < UInt64.size) ∧
      StringEncoding.wide.bytes .bits16 text = bytes ∧
      (Record.mk .string 0x84 (.buffer (lengthPrefixed bytes ++ [0x41]))).decode .bits16 =
        .string text := by
  intro text bytes
  have encoded : StringEncoding.wide.bytes .bits16 text = bytes := by decide
  have counted : (StringEncoding.wide.bytes .bits16 text).length < UInt64.size := by
    rw [encoded]
    decide
  have read := (decode_lengthPrefixed text).1 .wide .bits16 true [0x41] trivial counted
  rw [encoded] at read
  exact ⟨⟨trivial, counted⟩, encoded, read⟩

end Record

end Emitter
