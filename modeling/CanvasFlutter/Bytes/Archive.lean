/-!
# `CanvasFlutter.Bytes.Archive` — zip archives

An archive is a sequence of entries, each a name and a content; the name of a folder ends in a
slash. Contents are stored as they are.

## Contents
- **Entries.** `ArchiveEntry`.
- **Writing.** `crc32`, `localPart`, `centralPart`, `write`.
- **Reading.** `read?` gives back the entries of what `write` wrote.
-/

namespace CanvasFlutter

/-! ## Entries -/

/-- An entry of an archive. -/
structure ArchiveEntry where
  name : String
  content : ByteArray

namespace Archive

/-! ## Writing -/

/-- A number in `count` bytes, the least significant first. -/
def littleEndian (count n : Nat) : List UInt8 :=
  (List.range count).map fun i => (n / Nat.pow 256 i).toUInt8

/-- One step of the checksum for each bit of a byte. -/
def crcByte (crc : UInt32) (byte : UInt8) : UInt32 :=
  (List.range 8).foldl
    (fun c _ => if c &&& 1 = 1 then (c >>> 1) ^^^ 0xEDB88320 else c >>> 1) (crc ^^^ byte.toUInt32)

/-- The checksum of a content. -/
def crc32 (content : List UInt8) : UInt32 := ~~~(content.foldl crcByte 0xFFFFFFFF)

/-- What opens an entry. -/
def localSignature : List UInt8 := [0x50, 0x4B, 0x03, 0x04]

/-- What opens an item of the table of contents. -/
def centralSignature : List UInt8 := [0x50, 0x4B, 0x01, 0x02]

/-- What opens the end of an archive. -/
def endSignature : List UInt8 := [0x50, 0x4B, 0x05, 0x06]

/-- What both headers of an entry say: names in UTF-8, contents stored, a fixed date, the
checksum, both sizes, and the lengths of the name and of nothing more. -/
def commonHeader (entry : ArchiveEntry) : List UInt8 :=
  let size := entry.content.size
  littleEndian 2 20 ++ littleEndian 2 0x0800 ++ littleEndian 2 0 ++ littleEndian 2 0
    ++ littleEndian 2 0x21 ++ littleEndian 4 (crc32 entry.content.data.toList).toNat
    ++ littleEndian 4 size ++ littleEndian 4 size
    ++ littleEndian 2 entry.name.utf8ByteSize ++ littleEndian 2 0

/-- The bytes of a name. -/
def nameBytes (entry : ArchiveEntry) : List UInt8 := entry.name.toUTF8.data.toList

/-- An entry with its content. -/
def localPart (entry : ArchiveEntry) : List UInt8 :=
  localSignature ++ commonHeader entry ++ nameBytes entry ++ entry.content.data.toList

/-- The permissions of an entry: those of a folder or of a plain file. -/
def attributes (entry : ArchiveEntry) : Nat :=
  (if entry.name.toList.getLast? = some '/' then 0o40644 else 0o100644) * 65536

/-- An item of the table of contents, for an entry at an offset. -/
def centralPart (offset : Nat) (entry : ArchiveEntry) : List UInt8 :=
  centralSignature ++ littleEndian 2 0x0314 ++ commonHeader entry ++ littleEndian 2 0
    ++ littleEndian 2 0 ++ littleEndian 2 0 ++ littleEndian 4 (attributes entry)
    ++ littleEndian 4 offset ++ nameBytes entry

/-- The table of contents of entries that begin at an offset. -/
def centralTable : (offset : Nat) → List ArchiveEntry → List UInt8
  | _, [] => []
  | offset, entry :: rest =>
      centralPart offset entry ++ centralTable (offset + (localPart entry).length) rest

/-- An archive of entries in this order. -/
def write (entries : List ArchiveEntry) : ByteArray :=
  let contents := entries.flatMap localPart
  let table := centralTable 0 entries
  let count := littleEndian 2 entries.length
  ⟨(contents ++ table ++ endSignature ++ littleEndian 2 0 ++ littleEndian 2 0 ++ count ++ count
    ++ littleEndian 4 table.length ++ littleEndian 4 contents.length ++ littleEndian 2 0).toArray⟩

/-! ## Reading -/

/-- The number that bytes stand for, the least significant first. -/
def valueOf (bytes : List UInt8) : Nat := bytes.foldr (fun b n => b.toNat + 256 * n) 0

/-- The number in `count` bytes from an offset. -/
def numberAt (bytes : List UInt8) (offset count : Nat) : Nat :=
  valueOf ((bytes.drop offset).take count)

/-- The entries in front of the table of contents. Each takes at least the thirty bytes of its
header. -/
def readEntries? : (fuel : Nat) → List UInt8 → Option (List ArchiveEntry)
  | 0, _ => none
  | fuel + 1, bytes =>
      let signature := bytes.take 4
      if signature = centralSignature ∨ signature = endSignature then some []
      else if signature = localSignature ∧ numberAt bytes 8 2 = 0 then
        let size := numberAt bytes 18 4
        let nameLength := numberAt bytes 26 2
        let afterHeader := bytes.drop (30 + numberAt bytes 28 2)
        let content := (bytes.drop (30 + nameLength + numberAt bytes 28 2)).take size
        match String.fromUTF8? ⟨(afterHeader.take nameLength).toArray⟩ with
        | some name =>
            if content.length = size then
              (readEntries? fuel (bytes.drop (30 + nameLength + numberAt bytes 28 2 + size))).map
                (⟨name, ⟨content.toArray⟩⟩ :: ·)
            else none
        | none => none
      else none

/-- The entries of an archive, in their order. -/
def read? (archive : ByteArray) : Option (List ArchiveEntry) :=
  readEntries? (archive.size + 1) archive.data.toList

end Archive

end CanvasFlutter
