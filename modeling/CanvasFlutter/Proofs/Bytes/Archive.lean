import Mathlib
import CanvasFlutter.Bytes.Archive
import CanvasFlutter.Proofs.Text.Lines

namespace CanvasFlutter

/-!
# `CanvasFlutter.Proofs.Bytes.Archive` — an archive is read as it was written

A reader finds every part of an entry by numbers that the header before it holds, each in a fixed
count of bytes at a fixed offset. So what is needed is that each number fits its bytes; then an
entry is read back whatever follows it, and an archive entry by entry up to its table of contents.

## Contents
- **Numbers.** `valueOf_littleEndian`, `numberAt_append`.
- **Entries.** `ArchiveEntry.Fits`; `readEntries?_localPart`: one entry.
- **Archives.** `numberAt_endPart`, `read?_write`.
-/

deriving instance DecidableEq for ArchiveEntry

/-- The name and the content of an entry are not longer than its header can say. -/
structure ArchiveEntry.Fits (entry : ArchiveEntry) : Prop where
  name : entry.name.utf8ByteSize < 256 ^ 2
  content : entry.content.size < 256 ^ 4

namespace Archive

/-! ## Numbers -/

@[simp] theorem length_littleEndian (count n : Nat) : (littleEndian count n).length = count := by
  simp [littleEndian]

theorem littleEndian_succ (count n : Nat) :
    littleEndian (count + 1) n = n.toUInt8 :: littleEndian count (n / 256) := by
  have hdiv : ∀ i, n / 256 ^ (i + 1) = n / 256 / 256 ^ i := fun i => by
    rw [Nat.pow_succ', Nat.div_div_eq_div_mul]
  rw [littleEndian, List.range_succ_eq_map, List.map_cons, List.map_map]
  simp [littleEndian, hdiv]

/-- As many bytes as there are hold the number as far as they reach. -/
theorem valueOf_littleEndian (count n : Nat) :
    valueOf (littleEndian count n) = n % 256 ^ count := by
  induction count generalizing n with
  | zero => simp [littleEndian, valueOf, Nat.mod_one]
  | succ count ih =>
      calc valueOf (littleEndian (count + 1) n)
          = n.toUInt8.toNat + 256 * valueOf (littleEndian count (n / 256)) := by
            rw [littleEndian_succ]
            rfl
        _ = n % 256 + 256 * (n / 256 % 256 ^ count) := by
            rw [ih, UInt8.toNat_ofNat']
        _ = n % 256 ^ (count + 1) := by rw [Nat.pow_succ', Nat.mod_mul]

/-- A number that fits its bytes is read as it was written. -/
theorem numberAt_written {count n : Nat} (hn : n < 256 ^ count) (rest : List UInt8) :
    numberAt (littleEndian count n ++ rest) 0 count = n := by
  rw [numberAt, List.drop_zero, List.take_left' (length_littleEndian count n),
    valueOf_littleEndian, Nat.mod_eq_of_lt hn]

/-- What stands in front of a number does not matter. -/
theorem numberAt_append {front : List UInt8} {offset : Nat} (h : front.length ≤ offset)
    (rest : List UInt8) (count : Nat) :
    numberAt (front ++ rest) offset count = numberAt rest (offset - front.length) count := by
  rw [numberAt, List.drop_append, List.drop_eq_nil_of_le h, List.nil_append, numberAt]

/-! ## Entries -/

variable {entry : ArchiveEntry} {entries : List ArchiveEntry} {fuel : Nat} {rest bytes : List UInt8}

theorem length_commonHeader (entry : ArchiveEntry) : (commonHeader entry).length = 26 := by
  simp [commonHeader]

theorem length_nameBytes (entry : ArchiveEntry) :
    (nameBytes entry).length = entry.name.utf8ByteSize := rfl

/-- Every entry takes the thirty bytes of its header. -/
theorem length_localPart (entry : ArchiveEntry) : (localPart entry).length
    = 30 + entry.name.utf8ByteSize + entry.content.size := by
  simp only [localPart, List.length_append, length_commonHeader, length_nameBytes]
  rfl

/-- Behind the header of an entry there are its name and its content. -/
theorem drop_localPart (entry : ArchiveEntry) (rest : List UInt8) :
    (localPart entry ++ rest).drop 30 = nameBytes entry ++ (entry.content.data.toList ++ rest) := by
  have hheader : (localSignature ++ commonHeader entry).length = 30 := by
    rw [List.length_append, length_commonHeader]
    rfl
  have hparts : localPart entry ++ rest = (localSignature ++ commonHeader entry)
      ++ (nameBytes entry ++ (entry.content.data.toList ++ rest)) := by
    simp only [localPart, List.append_assoc]
  rw [hparts, ← hheader, List.drop_left]

/-- An entry with all the numbers of its header. -/
theorem localPart_append (entry : ArchiveEntry) (rest : List UInt8) : localPart entry ++ rest
    = localSignature ++ (littleEndian 2 20 ++ (littleEndian 2 0x0800 ++ (littleEndian 2 0
      ++ (littleEndian 2 0 ++ (littleEndian 2 0x21
      ++ (littleEndian 4 (crc32 entry.content.data.toList).toNat ++ (littleEndian 4 entry.content.size
      ++ (littleEndian 4 entry.content.size ++ (littleEndian 2 entry.name.utf8ByteSize
      ++ (littleEndian 2 0 ++ (nameBytes entry ++ (entry.content.data.toList ++ rest)))))))))))) := by
  simp only [localPart, commonHeader, List.append_assoc]

/-- **An entry is read** whatever follows it, and then the rest. -/
theorem readEntries?_localPart (h : entry.Fits) :
    readEntries? (fuel + 1) (localPart entry ++ rest)
      = (readEntries? fuel rest).map (entry :: ·) := by
  have hlength : localSignature.length = 4 := rfl
  have hsignature : (localPart entry ++ rest).take 4 = localSignature := by
    rw [localPart_append, List.take_left' hlength]
  have hmethod : numberAt (localPart entry ++ rest) 8 2 = 0 := by
    rw [localPart_append]
    simp [numberAt_append, hlength, numberAt_written]
  have hsize : numberAt (localPart entry ++ rest) 18 4 = entry.content.size := by
    rw [localPart_append]
    simp [numberAt_append, hlength, numberAt_written h.content]
  have hname : numberAt (localPart entry ++ rest) 26 2 = entry.name.utf8ByteSize := by
    rw [localPart_append]
    simp [numberAt_append, hlength, numberAt_written h.name]
  have hextra : numberAt (localPart entry ++ rest) 28 2 = 0 := by
    rw [localPart_append]
    simp [numberAt_append, hlength, numberAt_written]
  -- Behind the header there are the name and the content, each as long as the header says.
  have hnamed : ((localPart entry ++ rest).drop 30).take entry.name.utf8ByteSize = nameBytes entry := by
    rw [drop_localPart, List.take_left' (length_nameBytes entry)]
  have hbehind : (localPart entry ++ rest).drop (30 + entry.name.utf8ByteSize)
      = entry.content.data.toList ++ rest := by
    rw [← List.drop_drop, drop_localPart, List.drop_left' (length_nameBytes entry)]
  have hbytes : entry.content.data.toList.length = entry.content.size := Array.length_toList
  have hcontent : (entry.content.data.toList ++ rest).take entry.content.size
      = entry.content.data.toList := List.take_left' hbytes
  have hrest : (localPart entry ++ rest).drop (30 + entry.name.utf8ByteSize + entry.content.size)
      = rest := by
    rw [← List.drop_drop, hbehind, List.drop_left' hbytes]
  have htext : String.fromUTF8? ⟨(nameBytes entry).toArray⟩ = some entry.name :=
    Text.fromUTF8?_toUTF8 entry.name
  have hother : ¬ (localSignature = centralSignature ∨ localSignature = endSignature) := by decide
  rw [readEntries?]
  simp only [hsignature, hmethod, hsize, hname, hextra, hnamed, hbehind, hcontent, hrest, htext,
    if_neg hother, Nat.add_zero, and_self, if_true, hbytes]

/-- The entries end where the table of contents begins, or the end of the archive. -/
theorem readEntries?_end (h : bytes.take 4 = centralSignature ∨ bytes.take 4 = endSignature) :
    readEntries? (fuel + 1) bytes = some [] := by
  rw [readEntries?, if_pos h]

/-- Entries are read one after another up to their end. -/
theorem readEntries?_flatMap (h : ∀ entry ∈ entries, entry.Fits)
    (hrest : rest.take 4 = centralSignature ∨ rest.take 4 = endSignature) :
    readEntries? (fuel + entries.length + 1) (entries.flatMap localPart ++ rest) = some entries := by
  induction entries with
  | nil => exact readEntries?_end hrest
  | cons entry others ih =>
      obtain ⟨hentry, hothers⟩ := List.forall_mem_cons.mp h
      rw [List.flatMap_cons, List.append_assoc, List.length_cons, readEntries?_localPart hentry,
        ← Nat.add_assoc, ih hothers]
      rfl

/-! ## Archives -/

theorem length_le_flatMap (entries : List ArchiveEntry) :
    entries.length ≤ (entries.flatMap localPart).length := by
  induction entries with
  | nil => exact Nat.zero_le _
  | cons entry others ih =>
      rw [List.flatMap_cons, List.length_append, length_localPart, List.length_cons]
      omega

/-- What ends an archive: how many entries there are, how long the table of contents is and where it
begins. -/
def endPart (count length offset : Nat) : List UInt8 :=
  endSignature ++ (littleEndian 2 0 ++ (littleEndian 2 0 ++ (littleEndian 2 count
    ++ (littleEndian 2 count ++ (littleEndian 4 length ++ (littleEndian 4 offset
    ++ littleEndian 2 0))))))

/-- The numbers at the end of an archive are read as they were written. -/
theorem numberAt_endPart {count length offset : Nat} (hcount : count < 256 ^ 2)
    (hlength : length < 256 ^ 4) (hoffset : offset < 256 ^ 4) :
    numberAt (endPart count length offset) 10 2 = count
      ∧ numberAt (endPart count length offset) 12 4 = length
      ∧ numberAt (endPart count length offset) 16 4 = offset := by
  have hsignature : endSignature.length = 4 := rfl
  refine ⟨?_, ?_, ?_⟩
  · simp [endPart, numberAt_append, hsignature, numberAt_written hcount]
  · simp [endPart, numberAt_append, hsignature, numberAt_written hlength]
  · simp [endPart, numberAt_append, hsignature, numberAt_written hoffset]

/-- What stands behind the entries of an archive. -/
def closing (entries : List ArchiveEntry) : List UInt8 :=
  centralTable 0 entries ++ endPart entries.length (centralTable 0 entries).length
    (entries.flatMap localPart).length

/-- An archive is its entries, the table of contents and its end, which says where that begins. -/
theorem data_write (entries : List ArchiveEntry) :
    (write entries).data.toList = entries.flatMap localPart ++ closing entries := by
  simp [write, closing, endPart]

/-- Behind the entries there is a signature that is not an entry's. -/
theorem take_closing (entries : List ArchiveEntry) : (closing entries).take 4 = centralSignature
    ∨ (closing entries).take 4 = endSignature := by
  cases entries with
  | nil => exact .inr rfl
  | cons entry others =>
      refine .inl ?_
      simp only [closing, centralTable, centralPart, List.append_assoc]
      exact List.take_left' rfl

/-- **An archive is read as it was written**, if no name or content is too long for its header. -/
theorem read?_write (h : ∀ entry ∈ entries, entry.Fits) : read? (write entries) = some entries := by
  have hsize : (write entries).size = (entries.flatMap localPart ++ closing entries).length := by
    rw [← data_write, Array.length_toList]
    rfl
  obtain ⟨fuel, hfuel⟩ : ∃ fuel, (write entries).size = fuel + entries.length := by
    refine ⟨(write entries).size - entries.length, (Nat.sub_add_cancel ?_).symm⟩
    rw [hsize, List.length_append]
    exact Nat.le_trans (length_le_flatMap entries) (Nat.le_add_right _ _)
  rw [read?, data_write, hfuel]
  exact readEntries?_flatMap h (take_closing entries)

end Archive

end CanvasFlutter
