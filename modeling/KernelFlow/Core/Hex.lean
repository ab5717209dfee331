import Mathlib
import KernelFlow.Library.Bincode
import KernelFlow.Core.Event

namespace KernelFlow

/-!
# Hex texts and workflow ids

Byte strings are written with two lowercase digits for each byte and read with
digits of either case.  A workflow id is displayed as its sixteen bytes in five
groups and parsed in any of the forms that the id library accepts.
-/

/-! ## Hex texts -/

/-- The value of a hex digit of either case. -/
def hexValue (digit : Char) : Option Nat :=
  if '0' ≤ digit ∧ digit ≤ '9' then some (digit.toNat - '0'.toNat)
  else if 'a' ≤ digit ∧ digit ≤ 'f' then some (digit.toNat - 'a'.toNat + 10)
  else if 'A' ≤ digit ∧ digit ≤ 'F' then some (digit.toNat - 'A'.toNat + 10)
  else none

/-- `hex::decode` on characters. -/
def hexDecodeChars : List Char -> Option (List UInt8)
  | [] => some []
  | high :: low :: rest =>
      match hexValue high, hexValue low, hexDecodeChars rest with
      | some first, some second, some bytes => some (UInt8.ofNat (16 * first + second) :: bytes)
      | _, _, _ => none
  | [_] => none

/-- `hex::decode`. -/
def hexDecode (text : String) : Option (List UInt8) :=
  hexDecodeChars text.toList

/-- The two digits of a byte. -/
def hexPair (byte : UInt8) : List Char :=
  [Nat.digitChar (byte.toNat / 16), Nat.digitChar (byte.toNat % 16)]

theorem toList_hexEncode (bytes : List UInt8) :
    (hexEncode bytes).toList = bytes.flatMap hexPair := by
  rw [hexEncode, String.toList_ofList]
  rfl

theorem hexValue_digitChar {value : Nat} (small : value < 16) :
    hexValue value.digitChar = some value := by
  have all : forall value, value < 16 -> hexValue (Nat.digitChar value) = some value := by decide
  exact all value small

theorem hexDecodeChars_hexPair (bytes : List UInt8) :
    hexDecodeChars (bytes.flatMap hexPair) = some bytes := by
  induction bytes with
  | nil => rfl
  | cons byte bytes inductionHypothesis =>
      have bound := byte.toNat_lt
      have high : byte.toNat / 16 < 16 := by omega
      have low : byte.toNat % 16 < 16 := by omega
      have whole : 16 * (byte.toNat / 16) + byte.toNat % 16 = byte.toNat := by omega
      change hexDecodeChars (Nat.digitChar (byte.toNat / 16) :: Nat.digitChar (byte.toNat % 16) ::
        bytes.flatMap hexPair) = _
      simp only [hexDecodeChars, hexValue_digitChar high, hexValue_digitChar low,
        inductionHypothesis, whole, UInt8.ofNat_toNat]

/-- What was written is read back. -/
theorem hexDecode_hexEncode (bytes : List UInt8) : hexDecode (hexEncode bytes) = some bytes := by
  rw [hexDecode, toList_hexEncode, hexDecodeChars_hexPair]

theorem length_flatMap_hexPair (bytes : List UInt8) :
    (bytes.flatMap hexPair).length = 2 * bytes.length := by
  induction bytes with
  | nil => rfl
  | cons byte bytes inductionHypothesis =>
      rw [List.flatMap_cons, List.length_append, inductionHypothesis, List.length_cons]
      change 2 + _ = _
      omega

/-! ## Workflow ids -/

namespace WorkflowId

/-- The sixteen bytes of an id, the highest first. -/
def toBytes (id : WorkflowId) : List UInt8 :=
  (Bincode.littleEndian 16 id.toNat).reverse

/-- The id of sixteen bytes. -/
def ofBytes (bytes : List UInt8) : WorkflowId :=
  BitVec.ofNat 128 (Bincode.ofLittleEndian bytes.reverse)

theorem length_toBytes (id : WorkflowId) : id.toBytes.length = 16 := by
  rw [toBytes, List.length_reverse, Bincode.length_littleEndian]

theorem ofBytes_toBytes (id : WorkflowId) : ofBytes id.toBytes = id := by
  rw [ofBytes, toBytes, List.reverse_reverse,
    Bincode.ofLittleEndian_littleEndian 16 _ (by simpa using id.isLt), BitVec.ofNat_toNat,
    BitVec.setWidth_eq]

/-- Put hyphens after 8, 12, 16 and 20 digits. -/
def hyphenate (digits : List Char) : List Char :=
  digits.take 8 ++ '-' :: ((digits.drop 8).take 4 ++ '-' :: ((digits.drop 12).take 4 ++
    '-' :: ((digits.drop 16).take 4 ++ '-' :: digits.drop 20)))

/-- The digits of a text with hyphens at the right places. -/
def unhyphenate (text : List Char) : Option (List Char) :=
  if text[8]? = some '-' ∧ text[13]? = some '-' ∧ text[18]? = some '-' ∧ text[23]? = some '-' then
    some (text.take 8 ++ ((text.drop 9).take 4 ++ ((text.drop 14).take 4 ++
      ((text.drop 19).take 4 ++ text.drop 24))))
  else none

/-- `Display`: the hyphenated form. -/
def display (id : WorkflowId) : String :=
  String.ofList (hyphenate (hexEncode id.toBytes).toList)

/-- Thirty-six characters with four hyphens. -/
def parseHyphenated (text : List Char) : Option WorkflowId :=
  (unhyphenate text).bind fun digits => (hexDecodeChars digits).map ofBytes

/-- `Uuid::parse_str`: plain, hyphenated, in braces or as a name. -/
def parse (text : String) : Option WorkflowId :=
  let characters := text.toList
  if characters.length = 32 then (hexDecodeChars characters).map ofBytes
  else if characters.length = 36 then parseHyphenated characters
  else if characters.length = 38 ∧ characters.head? = some '\x7b' ∧
      characters.getLast? = some '\x7d' then
    parseHyphenated (characters.drop 1).dropLast
  else if characters.length = 45 ∧ characters.take 9 = "urn:uuid:".toList then
    parseHyphenated (characters.drop 9)
  else none

theorem length_hyphenate {digits : List Char} (length : digits.length = 32) :
    (hyphenate digits).length = 36 := by
  simp [hyphenate, length]

/-- The five groups between the hyphens. -/
theorem unhyphenate_groups {first second third fourth fifth : List Char} (one : first.length = 8)
    (two : second.length = 4) (three : third.length = 4) (four : fourth.length = 4) :
    unhyphenate (first ++ '-' :: (second ++ '-' :: (third ++ '-' :: (fourth ++ '-' :: fifth)))) =
      some (first ++ (second ++ (third ++ (fourth ++ fifth)))) := by
  simp (disch := omega) [unhyphenate, List.getElem?_append, List.getElem?_cons_zero,
    List.drop_append, List.drop_of_length_le, one, two, three, four]

theorem unhyphenate_hyphenate {digits : List Char} (length : digits.length = 32) :
    unhyphenate (hyphenate digits) = some digits := by
  have group : forall start, (digits.drop start).take 4 ++ digits.drop (start + 4) =
      digits.drop start := by
    intro start
    rw [← List.drop_drop]
    exact List.take_append_drop 4 _
  rw [hyphenate, unhyphenate_groups (by simp [length]) (by simp [length]) (by simp [length])
    (by simp [length]), group 16, group 12, group 8, List.take_append_drop]

/-- A displayed id is parsed back. -/
theorem parse_display (id : WorkflowId) : parse id.display = some id := by
  have length : (hexEncode id.toBytes).toList.length = 32 := by
    rw [toList_hexEncode, length_flatMap_hexPair, length_toBytes]
  have whole := length_hyphenate length
  simp only [parse, display, String.toList_ofList, whole, parseHyphenated,
    unhyphenate_hyphenate length]
  rw [toList_hexEncode, Option.bind_some, hexDecodeChars_hexPair, Option.map_some, ofBytes_toBytes]
  rfl

theorem display_injective : Function.Injective display := by
  intro first second same
  have parsed := parse_display first
  rw [same, parse_display] at parsed
  exact (Option.some.inj parsed).symm

theorem length_display (id : WorkflowId) : id.display.toList.length = 36 := by
  rw [display, String.toList_ofList]
  apply length_hyphenate
  rw [toList_hexEncode, length_flatMap_hexPair, length_toBytes]

end WorkflowId

end KernelFlow
