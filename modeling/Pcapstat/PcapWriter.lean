import Pcapstat.PcapReader

/-! # Writing a capture file (`tests/builder.c`)

The writer of the test suite: a global header in the byte order of the file, then a header and
the data for each record.  Integers read back as they were written (`rd32_of_bytes`). -/

namespace Pcapstat

open SpanWalk

/-! ### Integers -/

/-- `bb_u16` -/
def bbU16 (v : UInt16) (bigEndian : Bool) : List UInt8 :=
  if bigEndian then [(v >>> 8).toUInt8, v.toUInt8] else [v.toUInt8, (v >>> 8).toUInt8]

/-- `bb_u32` -/
def bbU32 (v : UInt32) (bigEndian : Bool) : List UInt8 :=
  if bigEndian then [(v >>> 24).toUInt8, (v >>> 16).toUInt8, (v >>> 8).toUInt8, v.toUInt8]
  else [v.toUInt8, (v >>> 8).toUInt8, (v >>> 16).toUInt8, (v >>> 24).toUInt8]

@[simp] theorem length_bbU16 (v : UInt16) (be : Bool) : (bbU16 v be).length = 2 := by
  cases be <;> rfl

@[simp] theorem length_bbU32 (v : UInt32) (be : Bool) : (bbU32 v be).length = 4 := by
  cases be <;> rfl

theorem loadBe32_bytes (v : UInt32) :
    loadBe32 (v >>> 24).toUInt8 (v >>> 16).toUInt8 (v >>> 8).toUInt8 v.toUInt8 = v := by
  have hbits : ∀ x : BitVec 32, ((x >>> 24).setWidth 8).setWidth 32 <<< 24 |||
      ((x >>> 16).setWidth 8).setWidth 32 <<< 16 ||| ((x >>> 8).setWidth 8).setWidth 32 <<< 8 |||
      (x.setWidth 8).setWidth 32 = x := by
    intro x
    apply BitVec.eq_of_getLsbD_eq
    intro i hi
    simp only [BitVec.getLsbD_or, BitVec.getLsbD_shiftLeft, BitVec.getLsbD_setWidth,
      BitVec.getLsbD_ushiftRight]
    -- each bit comes from exactly one of the four bytes
    obtain h | h | h | h : i < 8 ∨ (8 ≤ i ∧ i < 16) ∨ (16 ≤ i ∧ i < 24) ∨ (24 ≤ i ∧ i < 32) := by
      omega
    all_goals grind
  rw [← UInt32.toBitVec_inj]
  exact hbits v.toBitVec

theorem loadBe16_bytes (v : UInt16) : loadBe16 (v >>> 8).toUInt8 v.toUInt8 = v := by
  have hbits : ∀ x : BitVec 16, ((x >>> 8).setWidth 8).setWidth 16 <<< 8 |||
      (x.setWidth 8).setWidth 16 = x := by
    intro x
    apply BitVec.eq_of_getLsbD_eq
    intro i hi
    simp only [BitVec.getLsbD_or, BitVec.getLsbD_shiftLeft, BitVec.getLsbD_setWidth,
      BitVec.getLsbD_ushiftRight]
    obtain h | h : i < 8 ∨ (8 ≤ i ∧ i < 16) := by omega
    all_goals grind
  rw [← UInt16.toBitVec_inj]
  exact hbits v.toBitVec

theorem loadLe16_eq (p0 p1 : UInt8) : loadLe16 p0 p1 = loadBe16 p1 p0 := rfl

theorem loadLe32_eq (p0 p1 p2 p3 : UInt8) : loadLe32 p0 p1 p2 p3 = loadBe32 p3 p2 p1 p0 := rfl

namespace Ptr

/-- A byte that lies in a prefix of the buffer. -/
theorem byte_of_bytes {p : Ptr} {n i j : ℕ} {b : UInt8} (h : ((p.bytes n).drop i)[j]? = some b) :
    p.byte (i + j) = b := by
  rw [List.getElem?_drop, bytes, List.getElem?_take] at h
  by_cases hn : i + j < n
  · rw [if_pos hn, List.getElem?_drop] at h
    rw [byte, List.getD_eq_getElem?_getD, h]
    rfl
  · rw [if_neg hn] at h
    exact absurd h.symm (Option.some_ne_none b)

end Ptr

theorem rd32_of_bytes {p : Ptr} {n i : ℕ} {v : UInt32} {be : Bool} {more : List UInt8}
    (h : (p.bytes n).drop i = bbU32 v be ++ more) : rd32 p i be = v := by
  have hbyte : ∀ {j b}, (bbU32 v be ++ more)[j]? = some b → p.byte (i + j) = b := fun hj =>
    Ptr.byte_of_bytes (h ▸ hj)
  cases be with
  | true =>
      have h₀ : p.byte i = (v >>> 24).toUInt8 := hbyte (j := 0) rfl
      have h₁ : p.byte (i + 1) = (v >>> 16).toUInt8 := hbyte rfl
      have h₂ : p.byte (i + 2) = (v >>> 8).toUInt8 := hbyte rfl
      have h₃ : p.byte (i + 3) = v.toUInt8 := hbyte rfl
      rw [rd32, if_pos rfl, h₀, h₁, h₂, h₃, loadBe32_bytes]
  | false =>
      have h₀ : p.byte i = v.toUInt8 := hbyte (j := 0) rfl
      have h₁ : p.byte (i + 1) = (v >>> 8).toUInt8 := hbyte rfl
      have h₂ : p.byte (i + 2) = (v >>> 16).toUInt8 := hbyte rfl
      have h₃ : p.byte (i + 3) = (v >>> 24).toUInt8 := hbyte rfl
      rw [rd32, if_neg Bool.false_ne_true, h₀, h₁, h₂, h₃, loadLe32_eq, loadBe32_bytes]

theorem rd16_of_bytes {p : Ptr} {n i : ℕ} {v : UInt16} {be : Bool} {more : List UInt8}
    (h : (p.bytes n).drop i = bbU16 v be ++ more) : rd16 p i be = v := by
  have hbyte : ∀ {j b}, (bbU16 v be ++ more)[j]? = some b → p.byte (i + j) = b := fun hj =>
    Ptr.byte_of_bytes (h ▸ hj)
  cases be with
  | true =>
      have h₀ : p.byte i = (v >>> 8).toUInt8 := hbyte (j := 0) rfl
      have h₁ : p.byte (i + 1) = v.toUInt8 := hbyte rfl
      rw [rd16, if_pos rfl, h₀, h₁, loadBe16_bytes]
  | false =>
      have h₀ : p.byte i = v.toUInt8 := hbyte (j := 0) rfl
      have h₁ : p.byte (i + 1) = (v >>> 8).toUInt8 := hbyte rfl
      rw [rd16, if_neg Bool.false_ne_true, h₀, h₁, loadLe16_eq, loadBe16_bytes]

/-! ### Files -/

/-- A record to write: the data fit into one. -/
structure RawRecord where
  sec : UInt32
  frac : UInt32
  origlen : UInt32
  data : List UInt8
  fits : data.length ≤ pcapMaxCaplen

/-- The magic number, which the reader learns the byte order from. -/
def fileMagic (nsec : Bool) : UInt32 := if nsec then magicNsec else magicUsec

/-- `pcap_put_global` -/
def pcapPutGlobal (bigEndian nsec : Bool) (snaplen linktype : UInt32) : List UInt8 :=
  bbU32 (fileMagic nsec) bigEndian ++ (bbU16 2 bigEndian ++ (bbU16 4 bigEndian ++ (bbU32 0 bigEndian ++
    (bbU32 0 bigEndian ++ (bbU32 snaplen bigEndian ++ bbU32 linktype bigEndian)))))

/-- The header that `pcap_put_record` writes. -/
def RawRecord.header (bigEndian : Bool) (r : RawRecord) : List UInt8 :=
  bbU32 r.sec bigEndian ++ (bbU32 r.frac bigEndian ++ (bbU32 (UInt32.ofNat r.data.length) bigEndian ++
    bbU32 r.origlen bigEndian))

/-- `pcap_put_record` -/
def pcapPutRecord (bigEndian : Bool) (r : RawRecord) : List UInt8 := r.header bigEndian ++ r.data

/-- The records of a file. -/
def pcapPutRecords (bigEndian : Bool) (rs : List RawRecord) : List UInt8 :=
  rs.flatMap (pcapPutRecord bigEndian)

/-- A whole file. -/
def pcapFile (bigEndian nsec : Bool) (snaplen : UInt32) (rs : List RawRecord) : List UInt8 :=
  pcapPutGlobal bigEndian nsec snaplen pcapLinktypeEthernet ++ pcapPutRecords bigEndian rs

theorem length_pcapPutGlobal (be nsec : Bool) (snaplen linktype : UInt32) :
    (pcapPutGlobal be nsec snaplen linktype).length = pcapGlobalHdrLen := by
  simp [pcapPutGlobal, pcapGlobalHdrLen]

theorem RawRecord.length_header (be : Bool) (r : RawRecord) :
    (r.header be).length = pcapRecordHdrLen := by
  simp [RawRecord.header, pcapRecordHdrLen]

/-- The size of a record in the file. -/
def RawRecord.size (r : RawRecord) : ℕ := pcapRecordHdrLen + r.data.length

theorem length_pcapPutRecord (be : Bool) (r : RawRecord) : (pcapPutRecord be r).length = r.size := by
  rw [pcapPutRecord, List.length_append, r.length_header, RawRecord.size]

/-- The size of some records in the file. -/
def sizes (raws : List RawRecord) : ℕ := (raws.map RawRecord.size).sum

/-- Where record `j` starts. -/
def startOf (raws : List RawRecord) (j : ℕ) : ℕ := pcapGlobalHdrLen + sizes (raws.take j)

theorem sizes_cons (raw : RawRecord) (raws : List RawRecord) : sizes (raw :: raws) = raw.size + sizes raws :=
  rfl

theorem length_pcapPutRecords (be : Bool) : ∀ raws : List RawRecord,
    (pcapPutRecords be raws).length = sizes raws
  | [] => rfl
  | raw :: raws => by
      rw [pcapPutRecords, List.flatMap_cons, List.length_append, length_pcapPutRecord, sizes_cons]
      exact congrArg _ (length_pcapPutRecords be raws)

@[simp] theorem startOf_zero (raws : List RawRecord) : startOf raws 0 = pcapGlobalHdrLen := rfl

theorem startOf_succ {raws : List RawRecord} {j : ℕ} (hj : j < raws.length) :
    startOf raws (j + 1) = startOf raws j + raws[j].size := by
  rw [startOf, startOf, List.take_add_one, List.getElem?_eq_getElem hj, sizes, List.map_append,
    List.sum_append, ← Nat.add_assoc]
  rfl

theorem startOf_mono (raws : List RawRecord) {i j : ℕ} (h : i ≤ j) : startOf raws i ≤ startOf raws j := by
  obtain ⟨d, rfl⟩ := Nat.exists_eq_add_of_le h
  rw [startOf, startOf, List.take_add, sizes, sizes, List.map_append, List.sum_append]
  omega

theorem startOf_lt {raws : List RawRecord} {j : ℕ} (hj : j < raws.length) :
    startOf raws j + pcapRecordHdrLen ≤ startOf raws (j + 1) := by
  rw [startOf_succ hj, RawRecord.size]
  omega

end Pcapstat
