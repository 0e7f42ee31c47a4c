import Mathlib.Data.List.Basic

/-! # Texts as bytes

A text in its UTF-8 form, and how bytes are shown that need not be a text.
-/

namespace Inference.Foundation.Utf8Text

def encode (text : List Char) : List UInt8 :=
  text.flatMap String.utf8EncodeChar

def decode (bytes : List UInt8) : Option (List Char) :=
  bytes.toByteArray.utf8Decode?.map Array.toList

@[simp] theorem encode_nil : encode [] = [] :=
  rfl

@[simp] theorem encode_cons (next : Char) (rest : List Char) :
    encode (next :: rest) = String.utf8EncodeChar next ++ encode rest :=
  rfl

@[simp] theorem encode_append (front back : List Char) :
    encode (front ++ back) = encode front ++ encode back :=
  List.flatMap_append

theorem toByteArray_encode (text : List Char) : (encode text).toByteArray = text.utf8Encode :=
  rfl

theorem decode_encode (text : List Char) : decode (encode text) = some text := by
  rw [decode, toByteArray_encode, List.utf8Decode?_utf8Encode]
  rfl

theorem decode_eq_some_iff {bytes : List UInt8} {text : List Char} :
    decode bytes = some text ↔ encode text = bytes := by
  constructor
  · intro decoded
    rcases Option.map_eq_some_iff.mp decoded with ⟨chars, found, rfl⟩
    have isText : bytes.toByteArray.utf8Decode?.isSome = true := by
      rw [found]
      rfl
    have same : (bytes.toByteArray.utf8Decode?.get isText).toList.utf8Encode =
        bytes.toByteArray :=
      ByteArray.utf8Encode_get_utf8Decode?
    simp only [found, Option.get_some] at same
    exact List.toByteArray_inj.mp same
  · rintro rfl
    exact decode_encode text

/-- An ASCII byte stands for its character alone. -/
theorem mem_utf8EncodeChar {byte : UInt8} {c : Char} (ascii : byte.toNat < 128) :
    byte ∈ String.utf8EncodeChar c ↔ c.toNat = byte.toNat := by
  have bound : c.val.toNat < 0x110000 := by
    rcases c.valid with low | high
    · omega
    · exact high.2
  change byte ∈ String.utf8EncodeChar c ↔ c.val.toNat = byte.toNat
  unfold String.utf8EncodeChar
  dsimp only
  repeat' split
  all_goals
    simp only [List.mem_cons, List.not_mem_nil, or_false, ← UInt8.toNat_inj, UInt8.toNat_ofNat']
    omega

theorem mem_encode {byte : UInt8} {text : List Char} (ascii : byte.toNat < 128) :
    byte ∈ encode text ↔ ∃ c ∈ text, c.toNat = byte.toNat := by
  simp only [encode, List.mem_flatMap, mem_utf8EncodeChar ascii]

/-- Whether the second byte may stand behind the first one, in a form of three or four bytes. -/
def mayFollow (first second : UInt8) : Bool :=
  if first = 0xE0 then 0xA0 ≤ second && second ≤ 0xBF
  else if first = 0xED then 0x80 ≤ second && second ≤ 0x9F
  else if first = 0xF0 then 0x90 ≤ second && second ≤ 0xBF
  else if first = 0xF4 then 0x80 ≤ second && second ≤ 0x8F
  else 0xE1 ≤ first && first ≤ 0xF3 && 0x80 ≤ second && second ≤ 0xBF

/-- How many bytes are shown as one replacement character: the longest beginning of a character, or
a single byte. -/
def invalidLength : List UInt8 → Nat
  | first :: second :: third :: _ =>
      if mayFollow first second then
        if 0xF0 ≤ first && 0x80 ≤ third && third ≤ 0xBF then 3 else 2
      else 1
  | [first, second] => if mayFollow first second then 2 else 1
  | _ => 1

/-- A text in front, then what is not a text, one replacement after the other. The fuel is the
number of bytes. -/
def replaceInvalid : (fuel : Nat) → List UInt8 → List Char
  | 0, _ => []
  | fuel + 1, bytes =>
      if bytes = [] then []
      else
        match bytes.toByteArray.utf8DecodeChar? 0 with
        | some c => c :: replaceInvalid fuel (bytes.drop c.utf8Size)
        | none => '\uFFFD' :: replaceInvalid fuel (bytes.drop (invalidLength bytes))

/-- `to_string_lossy`, and `display` of a path: bytes that are no text are replaced. -/
def toStringLossy (bytes : List UInt8) : List Char :=
  match decode bytes with
  | some text => text
  | none => replaceInvalid bytes.length bytes

theorem toStringLossy_encode (text : List Char) : toStringLossy (encode text) = text := by
  rw [toStringLossy, decode_encode]

end Inference.Foundation.Utf8Text
