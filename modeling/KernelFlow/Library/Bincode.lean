import Mathlib

universe u v

/-!
# A positional binary format

The format writes values without any description of their type: integers are
little-endian words of a fixed width, texts and byte strings follow their
length, the parts of a structure follow each other, and an enumeration starts
with the index of its variant.  A reader therefore has to say which kind of
value it expects at every point.

A `Format` is a writer and a reader that undo each other on the values that
fit.  A type may instead ask the reader to find out by itself what comes next;
that request cannot be served in this format and is an error.
-/

namespace Bincode

/-- What can go wrong when bytes are read. -/
inductive ReadError
  | unexpectedEnd
  | invalidUtf8
  | invalidTag (tag : Nat)
  | anyNotSupported
  | custom (message : String)
  deriving DecidableEq

/-- A writer and a reader for one type. -/
structure Format (α : Type u) where
  write : α -> List UInt8
  read : List UInt8 -> Except ReadError (α × List UInt8)
  /-- the values whose lengths and numbers the format can express -/
  fits : α -> Prop
  read_write : forall value rest, fits value -> read (write value ++ rest) = .ok (value, rest)

/-! ## Words -/

/-- The little-endian bytes of a number. -/
def littleEndian : Nat -> Nat -> List UInt8
  | 0, _ => []
  | width + 1, value => UInt8.ofNat (value % 256) :: littleEndian width (value / 256)

def ofLittleEndian : List UInt8 -> Nat
  | [] => 0
  | byte :: bytes => byte.toNat + 256 * ofLittleEndian bytes

@[simp]
theorem length_littleEndian (width value : Nat) : (littleEndian width value).length = width := by
  induction width generalizing value with
  | zero => rfl
  | succ width inductionHypothesis => rw [littleEndian, List.length_cons, inductionHypothesis]

theorem ofLittleEndian_littleEndian (width value : Nat) (bound : value < 256 ^ width) :
    ofLittleEndian (littleEndian width value) = value := by
  induction width generalizing value with
  | zero =>
      rw [Nat.pow_zero, Nat.lt_one_iff] at bound
      rw [bound]
      rfl
  | succ width inductionHypothesis =>
      have smaller : value / 256 < 256 ^ width := by
        rw [Nat.pow_succ] at bound
        exact Nat.div_lt_of_lt_mul (by rwa [Nat.mul_comm])
      have byte : (UInt8.ofNat (value % 256)).toNat = value % 256 := by
        rw [UInt8.toNat_ofNat', Nat.mod_mod]
      rw [littleEndian, ofLittleEndian, inductionHypothesis _ smaller, byte]
      exact Nat.mod_add_div value 256

/-- A number of bytes, if there are that many left. -/
def readBytes (count : Nat) (input : List UInt8) : Except ReadError (List UInt8 × List UInt8) :=
  if count ≤ input.length then .ok (input.take count, input.drop count)
  else .error .unexpectedEnd

theorem readBytes_append (bytes rest : List UInt8) :
    readBytes bytes.length (bytes ++ rest) = .ok (bytes, rest) := by
  unfold readBytes
  rw [if_pos (by simp), List.take_left, List.drop_left]

def readWord (width : Nat) (input : List UInt8) : Except ReadError (Nat × List UInt8) :=
  (readBytes width input).map fun (bytes, rest) => (ofLittleEndian bytes, rest)

namespace Format

/-- A natural number as a word of the given width. -/
def word (width : Nat) : Format Nat where
  write := littleEndian width
  read := readWord width
  fits := fun value => value < 256 ^ width
  read_write := by
    intro value rest bound
    have bytes := readBytes_append (littleEndian width value) rest
    rw [length_littleEndian] at bytes
    rw [readWord, bytes]
    exact congrArg (fun number => Except.ok (number, rest))
      (ofLittleEndian_littleEndian width value bound)

/-- The format of a type that is read and written as another one. -/
def via {α : Type u} {β : Type v} (format : Format α) (wrap : α -> β) (unwrap : β -> α)
    (inverse : forall value, wrap (unwrap value) = value) : Format β where
  write := fun value => format.write (unwrap value)
  read := fun input => (format.read input).map fun (value, rest) => (wrap value, rest)
  fits := fun value => format.fits (unwrap value)
  read_write := by
    intro value rest fits
    rw [format.read_write _ rest fits]
    exact congrArg (fun wrapped => Except.ok (wrapped, rest)) (inverse value)

def u32 : Format UInt32 :=
  (word 4).via UInt32.ofNat UInt32.toNat fun _value => UInt32.ofNat_toNat

def u64 : Format UInt64 :=
  (word 8).via UInt64.ofNat UInt64.toNat fun _value => UInt64.ofNat_toNat

theorem u32_fits (value : UInt32) : u32.fits value :=
  value.toNat_lt

theorem u64_fits (value : UInt64) : u64.fits value :=
  value.toNat_lt

/-- A byte string after its length. -/
def bytes : Format (List UInt8) where
  write := fun value => (word 8).write value.length ++ value
  read := fun input =>
    match (word 8).read input with
    | .error error => .error error
    | .ok (length, rest) => readBytes length rest
  fits := fun value => value.length < 256 ^ 8
  read_write := by
    intro value rest bound
    rw [List.append_assoc, (word 8).read_write _ _ bound]
    exact readBytes_append value rest

/-- A text as the byte string of its encoding. -/
def str : Format String where
  write := fun value => bytes.write value.toByteArray.data.toList
  read := fun input =>
    match bytes.read input with
    | .error error => .error error
    | .ok (encoded, rest) =>
        match String.fromUTF8? ⟨encoded.toArray⟩ with
        | none => .error .invalidUtf8
        | some value => .ok (value, rest)
  fits := fun value => bytes.fits value.toByteArray.data.toList
  read_write := by
    intro value rest fits
    have decoded : String.fromUTF8? ⟨value.toByteArray.data.toList.toArray⟩ = some value := by
      rw [Array.toArray_toList, String.fromUTF8?, dif_pos value.isValidUTF8]
      rfl
    rw [bytes.read_write _ rest fits]
    simp only [decoded]

/-- Two parts, one after the other. -/
def pair {α : Type u} {β : Type v} (first : Format α) (second : Format β) : Format (α × β) where
  write := fun value => first.write value.1 ++ second.write value.2
  read := fun input =>
    match first.read input with
    | .error error => .error error
    | .ok (one, rest) => (second.read rest).map fun (other, rest) => ((one, other), rest)
  fits := fun value => first.fits value.1 ∧ second.fits value.2
  read_write := by
    rintro ⟨one, other⟩ rest ⟨firstFits, secondFits⟩
    rw [List.append_assoc, first.read_write _ _ firstFits]
    change (second.read (second.write other ++ rest)).map _ = _
    rw [second.read_write _ _ secondFits]
    rfl

/-- An enumeration: the index of the variant, then its payload. -/
def enum {count : Nat} {payload : Fin count -> Type u} (variants : forall index, Format (payload index)) :
    Format ((index : Fin count) × payload index) where
  write := fun value => (word 4).write value.1 ++ (variants value.1).write value.2
  read := fun input =>
    match (word 4).read input with
    | .error error => .error error
    | .ok (tag, rest) =>
        if bound : tag < count then
          ((variants ⟨tag, bound⟩).read rest).map fun (value, rest) => (⟨⟨tag, bound⟩, value⟩, rest)
        else .error (.invalidTag tag)
  fits := fun value => (word 4).fits value.1 ∧ (variants value.1).fits value.2
  read_write := by
    rintro ⟨index, value⟩ rest ⟨indexFits, valueFits⟩
    rw [List.append_assoc, (word 4).read_write _ _ indexFits]
    simp only [index.isLt, dif_pos]
    rw [(variants index).read_write _ _ valueFits]
    rfl

end Format

/-! ## Types and the reader -/

/-- What a type asks of the reader: a value of a known format, or whatever
comes next. -/
inductive Request (α : Type u)
  | expect (format : Format α)
  | any

/-- How a type goes to bytes, and what it asks for on the way back. -/
structure Codec (α : Type u) where
  serialize : α -> Except ReadError (List UInt8)
  request : Request α

/-- The answer to a request.  Bytes after an expected value are ignored; what
comes next cannot be told from the bytes. -/
def deserialize {α : Type u} : Request α -> List UInt8 -> Except ReadError α
  | .expect format, input => (format.read input).map Prod.fst
  | .any, _ => .error .anyNotSupported

/-- A type that is read as it is written. -/
def Codec.ofFormat {α : Type u} (format : Format α) : Codec α where
  serialize := fun value => .ok (format.write value)
  request := .expect format

theorem deserialize_expect {α : Type u} (format : Format α) {value : α}
    (fits : format.fits value) : deserialize (.expect format) (format.write value) = .ok value := by
  have alone := format.read_write value [] fits
  rw [List.append_nil] at alone
  rw [deserialize, alone]
  rfl

end Bincode
