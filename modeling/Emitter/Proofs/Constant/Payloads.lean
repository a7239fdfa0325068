import Emitter.Proofs.Constant.Strings
import Emitter.Proofs.Text.Faithful

/-! What a string record says about its payload. Whatever the bytes are, a text is read, and unless
the text shows the mark of bytes that no text has, they are the bytes of that text. -/

namespace Emitter

namespace StringEncoding

/-- What a text shows for bytes that are no part of a character. -/
def mark : StringEncoding → Char
  | ascii => '?'
  | _ => Text.replacement

theorem bytes_decode {encoding : StringEncoding} {width : WideWidth} {payload : Bytes}
    (h : encoding.mark ∉ encoding.decode width payload) :
    encoding.bytes width (String.ofList (encoding.decode width payload)) = payload := by
  have units : ∀ text, (TextEncoding.utf16Le.encode text).drop 2 = Text.Utf16.encode text.toList :=
    fun _ => rfl
  unfold bytes
  rw [TextEncoding.encode, units, String.toList_ofList]
  cases encoding with
  | ascii => exact Text.Ascii.encode_decode h
  | utf8 => exact Text.Utf8.encode_decode h
  | utf16 => exact Text.Utf16.encode_decode h
  | utf32 => exact Text.Utf32.encode_decode h
  | wide =>
    cases width with
    | bits16 => exact Text.Utf16.encode_decode h
    | bits32 => exact Text.Utf32.encode_decode h

end StringEncoding

namespace Record

/-- A payload is read as some text, whatever its bytes are, and if the text shows no mark the
payload is what the text is written as. So two payloads that are read as one text have left a mark
in it. -/
theorem payload_of_unmarked (encoding : StringEncoding) (width : WideWidth) (isWide : Bool)
    {payload : Bytes} (counted : payload.length < UInt64.size) :
    let tag := if isWide then encoding.tag ||| StringEncoding.wideBit else encoding.tag
    let read (bytes : Bytes) :=
      (Record.mk .string tag (.buffer (lengthPrefixed bytes))).decode width
    ∃ text, read payload = .string text ∧
      (encoding.mark ∉ text.toList → encoding.bytes width text = payload) ∧
      ∀ other : Bytes, other.length < UInt64.size → other ≠ payload → read other = .string text →
        encoding.mark ∈ text.toList := by
  intro tag read
  have reads {bytes : Bytes} (counted : bytes.length < UInt64.size) :
      read bytes = .string (String.ofList (encoding.decode width bytes)) := by
    have found := Bytes.content_lengthPrefixed counted []
    rw [List.append_nil] at found
    exact decode_string (encoding.ofTag?_tag isWide) found
  have back {bytes : Bytes}
      (h : encoding.mark ∉ (String.ofList (encoding.decode width bytes)).toList) :
      encoding.bytes width (String.ofList (encoding.decode width bytes)) = bytes := by
    rw [String.toList_ofList] at h
    exact StringEncoding.bytes_decode h
  refine ⟨_, reads counted, back, fun other counted' different same => ?_⟩
  rw [reads counted', Constant.string.injEq] at same
  refine Classical.byContradiction fun unmarked => different ?_
  rw [← back unmarked, ← same, back (same ▸ unmarked)]

/-- A surrogate pair before a byte order mark that is text comes back; a high and a low surrogate,
each by itself, are read as one text that shows the mark. -/
theorem payload_of_unmarked_surrogates :
    let pair : Bytes := [0x3D, 0xD8, 0x00, 0xDE, 0xFF, 0xFE]
    let high : Bytes := [0x3D, 0xD8]
    let low : Bytes := [0x00, 0xDE]
    let read (bytes : Bytes) :=
      (Record.mk .string 0x82 (.buffer (lengthPrefixed bytes))).decode .bits32
    (pair.length < UInt64.size ∧ high.length < UInt64.size ∧ low.length < UInt64.size) ∧
      read pair = .string "😀\ufeff" ∧ StringEncoding.utf16.bytes .bits32 "😀\ufeff" = pair ∧
      ∃ text, read high = .string text ∧ read low = .string text ∧ '\ufffd' ∈ text.toList := by
  intro pair high low read
  have counted : pair.length < UInt64.size ∧ high.length < UInt64.size ∧
      low.length < UInt64.size := by
    decide
  have text_pair : read pair = .string "😀\ufeff" := by decide
  have same : read low = read high := by decide
  obtain ⟨text, found, back, -⟩ := payload_of_unmarked .utf16 .bits32 true counted.1
  obtain rfl : "😀\ufeff" = text := Constant.string.inj (text_pair.symm.trans found)
  obtain ⟨text', found', -, marked⟩ := payload_of_unmarked .utf16 .bits32 true counted.2.1
  exact ⟨counted, text_pair, back (by decide), text', found', same.trans found',
    marked low counted.2.2 (by decide) (same.trans found')⟩

end Record

end Emitter
