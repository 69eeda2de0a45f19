/-
  Z80.Gzip

  Decompressing a gzip file: a header with optional fields, a DEFLATE stream,
  and the checksum and size of what it stands for.  What follows the first
  member is ignored.
-/

import Z80.Gzip.Inflate

namespace Z80.Gzip

/-! ## Checksum -/

/-- The checksum with one more bit shifted out. -/
def crcShift (c : UInt32) : UInt32 :=
  if c &&& 1 = 1 then (c >>> 1) ^^^ 0xEDB88320 else c >>> 1

/-- The checksum with one more byte. -/
def crcByte (c : UInt32) (b : Byte) : UInt32 :=
  Nat.repeat crcShift 8 (c ^^^ b.toUInt32)

/-- The CRC-32 of a byte sequence. -/
def crc32 (bs : ByteArray) : UInt32 :=
  bs.foldl crcByte 0xFFFFFFFF ^^^ 0xFFFFFFFF

/-- The number in four bytes, the least significant first. -/
def word32? : List Byte → Option UInt32
  | a :: b :: c :: d :: _ =>
    some (a.toUInt32 + 256 * (b.toUInt32 + 256 * (c.toUInt32 + 256 * d.toUInt32)))
  | _ => none

/-! ## Header -/

/-- What follows a text that ends with a zero byte. -/
def skipText? : List Byte → Option (List Byte)
  | [] => none
  | b :: bs => if b = 0 then some bs else skipText? bs

/-- What follows a field with its size in two bytes in front. -/
def skipField? : List Byte → Option (List Byte)
  | a :: b :: bs =>
    let n := a.toNat + 256 * b.toNat
    if n ≤ bs.length then some (bs.drop n) else none
  | _ => none

/-- What follows the checksum of the header `header`, which is its CRC-32 cut to
    two bytes. -/
def skipChecksum? (header : List Byte) : List Byte → Option (List Byte)
  | a :: b :: bs =>
    if (crc32 ⟨header.toArray⟩).toUInt16 = Word.ofBytes b a then some bs else none
  | _ => none

/-- What follows the header of a gzip file. -/
def skipHeader? (bs : List Byte) : Option (List Byte) :=
  match bs with
  | 0x1F :: 0x8B :: 0x08 :: flags :: _ :: _ :: _ :: _ :: _ :: _ :: rest => do
    if flags.bit 5 || flags.bit 6 || flags.bit 7 then none
    let rest ← if flags.bit 2 then skipField? rest else some rest
    let rest ← if flags.bit 3 then skipText? rest else some rest
    let rest ← if flags.bit 4 then skipText? rest else some rest
    if flags.bit 1 then skipChecksum? (bs.take (bs.length - rest.length)) rest else some rest
  | _ => none

/-! ## Files -/

/-- The contents of a gzip file.  `none` if the file is cut short or damaged. -/
def decompress? (file : ByteArray) : Option ByteArray := do
  let body ← skipHeader? file.toList
  let (rest, contents) ← inflate? body
  let checksum ← word32? rest
  let size ← word32? (rest.drop 4)
  if checksum = crc32 contents ∧ size = contents.size.toUInt32 then some contents else none

end Z80.Gzip
