import TonRelayer.Cells
import Mathlib.Tactic.IntervalCases

/-! Bytes as the relayer writes them: hex text, and chains of cells of 96 bytes each.
Strings travel as the chain of their UTF-8 bytes. A chain is assumed to stay within the
depth limit of a cell. -/
namespace ByteEncodings

open Cells

/-- What stands in the text of a `BocError`: an error of a library, or a text of the source. -/
inductive Fault where
  | cell (e : CellError)
  | notUtf8
  | notHex
  | badAddress
  | outOfRange
  | text (message : String)
  deriving DecidableEq, Repr

inductive BocError where
  | bocEncodingError (fault : Fault)
  | bocParsingError (fault : Fault)
  | invalidOpCode (message : String)
  deriving DecidableEq, Repr

section Hex

def hexDigit (n : ℕ) : Char := Nat.digitChar n

/-- `hex::encode` -/
def hexEncode (bytes : List UInt8) : String :=
  String.ofList (bytes.flatMap fun b => [hexDigit (b.toNat / 16), hexDigit (b.toNat % 16)])

def hexValue (c : Char) : Option ℕ :=
  if '0' ≤ c ∧ c ≤ '9' then some (c.toNat - '0'.toNat)
  else if 'a' ≤ c ∧ c ≤ 'f' then some (c.toNat - 'a'.toNat + 10)
  else if 'A' ≤ c ∧ c ≤ 'F' then some (c.toNat - 'A'.toNat + 10)
  else none

def hexDecodeChars : List Char → Option (List UInt8)
  | [] => some []
  | [_] => none
  | a :: b :: rest => do
    let x ← hexValue a
    let y ← hexValue b
    let bytes ← hexDecodeChars rest
    return UInt8.ofNat (16 * x + y) :: bytes

/-- `hex::decode` -/
def hexDecode (s : String) : Option (List UInt8) := hexDecodeChars s.toList

/-- `to_str_radix(16)` -/
def toStrRadix16 (n : ℕ) : String := String.ofList (Nat.toDigits 16 n)

/-- `TonAddress::to_hex` -/
def toHex (a : TonAddress) : String := toString a.workchain ++ ":" ++ hexEncode a.hashPart.toList

theorem hexValue_digitChar {d : ℕ} (h : d < 16) : hexValue (Nat.digitChar d) = some d := by
  interval_cases d <;> rfl

theorem hexDecode_hexEncode (bytes : List UInt8) : hexDecode (hexEncode bytes) = some bytes := by
  rw [hexDecode, hexEncode, String.toList_ofList]
  induction bytes with
  | nil => rfl
  | cons b bytes ih =>
    have hb : b.toNat < 256 := b.toNat_lt
    have hbyte : UInt8.ofNat (16 * (b.toNat / 16) + b.toNat % 16) = b := by
      rw [Nat.div_add_mod, UInt8.ofNat_toNat]
    have hx : hexValue (hexDigit (b.toNat / 16)) = some (b.toNat / 16) :=
      hexValue_digitChar (by omega)
    have hy : hexValue (hexDigit (b.toNat % 16)) = some (b.toNat % 16) :=
      hexValue_digitChar (by omega)
    rw [List.flatMap_cons, List.cons_append, List.cons_append, hexDecodeChars, hx, hy,
      List.nil_append, ih]
    exact congrArg (fun b => some (b :: bytes)) hbyte

end Hex

def asBytes (s : String) : List UInt8 := s.toUTF8.data.toList

/-- `String::from_utf8` -/
def fromUtf8 (bytes : List UInt8) : Except BocError String :=
  match String.fromUTF8? ⟨bytes.toArray⟩ with
  | some s => .ok s
  | none => .error (.bocParsingError .notUtf8)

theorem fromUtf8_asBytes (s : String) : fromUtf8 (asBytes s) = .ok s := by
  have hdecode : String.fromUTF8? s.toUTF8 = some s := by
    simp [String.fromUTF8?, String.fromUTF8, s.isValidUTF8]
  rw [fromUtf8, asBytes, Array.toArray_toList, hdecode]

def bytesPerCell : ℕ := 96

def storeBytes (b : CellBuilder) (bytes : List UInt8) : Except CellError CellBuilder :=
  bytes.foldlM (fun b byte => b.storeUint 8 byte.toNat) b

def parsing {α : Type} (r : Except CellError α) : Except BocError α :=
  r.mapError fun e => .bocParsingError (.cell e)

def encoding {α : Type} (r : Except CellError α) : Except BocError α :=
  r.mapError fun e => .bocEncodingError (.cell e)

def buildCellChain (startIndex : ℕ) (buffer : List UInt8) : Except BocError Cell := do
  let endIndex := min (startIndex + bytesPerCell) buffer.length
  let builder ← parsing (storeBytes {} ((buffer.drop startIndex).take (endIndex - startIndex)))
  if endIndex < buffer.length then
    let nextCell ← buildCellChain endIndex buffer
    let builder ← parsing (builder.storeReference nextCell)
    parsing builder.build
  else parsing builder.build
termination_by buffer.length - startIndex
decreasing_by unfold bytesPerCell at *; omega

def bufferToCell (buffer : List UInt8) : Except BocError Cell := buildCellChain 0 buffer

/-- Up to `n` bytes from the front; a remainder of less than eight bits is left. -/
def readBytes : ℕ → List Bool → List UInt8
  | 0, _ => []
  | n + 1, bits =>
    if 8 ≤ bits.length then UInt8.ofNat (bitsToNat (bits.take 8)) :: readBytes n (bits.drop 8)
    else []

/-- The bytes of the cell, then those of its first reference, to the end of the chain. -/
def cellToBuffer : Cell → List UInt8
  | .mk bits count refs =>
    readBytes bytesPerCell bits.1 ++ if h : 0 < count.val then cellToBuffer (refs ⟨0, h⟩) else []

def cellToString (c : Cell) : Except BocError String := fromUtf8 (cellToBuffer c)

/-- The cells along the first references. -/
def chainCells : Cell → List Cell
  | .mk bits count refs =>
    .mk bits count refs :: if h : 0 < count.val then chainCells (refs ⟨0, h⟩) else []

def chainBytes (c : Cell) : List UInt8 := (chainCells c).flatMap Cell.data

theorem cellToBuffer_eq (c : Cell) : cellToBuffer c = readBytes bytesPerCell c.bits ++
    match c.references with
    | [] => []
    | next :: _ => cellToBuffer next := by
  obtain ⟨bits, ⟨count, hcount⟩, refs⟩ := c
  cases count with
  | zero => simp [cellToBuffer, Cell.bits, Cell.references]
  | succ n => simp [cellToBuffer, Cell.bits, Cell.references, List.ofFn_succ]

theorem chainCells_eq (c : Cell) : chainCells c = c ::
    match c.references with
    | [] => []
    | next :: _ => chainCells next := by
  obtain ⟨bits, ⟨count, hcount⟩, refs⟩ := c
  cases count with
  | zero => simp [chainCells, Cell.references]
  | succ n => simp [chainCells, Cell.references, List.ofFn_succ]

/-- The reader takes from each cell of the chain what it reads there. -/
theorem cellToBuffer_chain (c : Cell) :
    cellToBuffer c = (chainCells c).flatMap fun cell => readBytes bytesPerCell cell.bits := by
  induction c with
  | mk bits count refs ih =>
    rw [cellToBuffer, chainCells, List.flatMap_cons]
    by_cases h : 0 < count.val
    · rw [dif_pos h, dif_pos h, ih]
      rfl
    · rw [dif_neg h, dif_neg h]
      rfl

theorem readBytes_bytesBits (n : ℕ) (bytes : List UInt8) :
    readBytes n (bytesBits bytes) = bytes.take n := by
  induction bytes generalizing n with
  | nil => cases n <;> simp [readBytes, bytesBits]
  | cons b bytes ih =>
    have hbits : bytesBits (b :: bytes) = byteBits b ++ bytesBits bytes := rfl
    have htake : (bytesBits (b :: bytes)).take 8 = byteBits b := by
      rw [hbits, List.take_append_of_le_length (by simp)]
      simp [List.take_of_length_le]
    have hdrop : (bytesBits (b :: bytes)).drop 8 = bytesBits bytes := by
      rw [hbits, List.drop_append_of_le_length (by simp), List.drop_of_length_le (by simp)]
      rfl
    cases n with
    | zero => rfl
    | succ n => rw [readBytes, if_pos (by simp), htake, hdrop, ofNat_byteBits, ih,
        List.take_succ_cons]

theorem bytesBits_injective {bytes bytes' : List UInt8} (h : bytesBits bytes = bytesBits bytes') :
    bytes = bytes' := by
  have hlength : bytes.length = bytes'.length := by
    have hbits := congrArg List.length h
    rw [bytesBits_length, bytesBits_length] at hbits
    omega
  have hread : bytes.take bytes.length = bytes'.take bytes.length := by
    rw [← readBytes_bytesBits, ← readBytes_bytesBits, h]
  rwa [List.take_length, hlength, List.take_length] at hread

theorem data_bits {c : Cell} (h : 8 ∣ c.bits.length) : bytesBits c.data = c.bits := by
  rw [Cell.data]
  apply bytesBits_bitsData
  omega

theorem data_eq {c : Cell} {bytes : List UInt8} (h : c.bits = bytesBits bytes) :
    c.data = bytes := by
  have hdvd : 8 ∣ c.bits.length := by
    rw [h, bytesBits_length]
    exact dvd_mul_right 8 _
  exact bytesBits_injective ((data_bits hdvd).trans h)

/-- From a cell of whole bytes, the first ones are read. -/
theorem readBytes_data {c : Cell} (n : ℕ) (h : 8 ∣ c.bits.length) :
    readBytes n c.bits = c.data.take n := by
  rw [← readBytes_bytesBits, data_bits h]

def WholeBytes (c : Cell) : Prop := ∀ cell ∈ chainCells c, 8 ∣ cell.bits.length

/-- No cell holds more than is read of it. -/
def ShortCells (c : Cell) : Prop := ∀ cell ∈ chainCells c, cell.data.length ≤ bytesPerCell

/-- Of each cell, the first bytes are read. -/
theorem cellToBuffer_take {c : Cell} (h : WholeBytes c) :
    cellToBuffer c = (chainCells c).flatMap fun cell => cell.data.take bytesPerCell := by
  rw [cellToBuffer_chain]
  apply List.flatMap_congr
  intro cell hcell
  exact readBytes_data _ (h cell hcell)

theorem cellToBuffer_short {c : Cell} (h : WholeBytes c) (hshort : ShortCells c) :
    cellToBuffer c = chainBytes c := by
  rw [cellToBuffer_take h, chainBytes]
  apply List.flatMap_congr
  intro cell hcell
  exact List.take_of_length_le (hshort cell hcell)

theorem storeBytes_ok (b : CellBuilder) (bytes : List UInt8) :
    storeBytes b bytes = .ok { b with bits := b.bits ++ bytesBits bytes } := by
  induction bytes generalizing b with
  | nil => simp [storeBytes, bytesBits, pure, Except.pure]
  | cons x bytes ih =>
    rw [storeBytes, List.foldlM_cons, CellBuilder.storeUint_ok x.toNat_lt]
    change storeBytes _ bytes = _
    rw [ih]
    simp [bytesBits, byteBits]

theorem parsing_ok {α : Type} {r : Except CellError α} {x : α} (h : r = .ok x) :
    parsing r = .ok x := by rw [h]; rfl

theorem encoding_ok {α : Type} {r : Except CellError α} {x : α} (h : r = .ok x) :
    encoding r = .ok x := by rw [h]; rfl

/-- A cell as `build_cell_chain` leaves it. -/
structure HoldsChunk (cell : Cell) : Prop where
  bytes : ∃ chunk, cell.bits = bytesBits chunk ∧ chunk.length ≤ bytesPerCell
  link : cell.references.length ≤ 1

theorem chainCells_last {c : Cell} (h : c.references = []) : chainCells c = [c] := by
  rw [chainCells_eq, h]

theorem chainCells_link {c next : Cell} (h : c.references = [next]) :
    chainCells c = c :: chainCells next := by
  rw [chainCells_eq, h]

theorem HoldsChunk.wholeBytes {cell : Cell} (h : HoldsChunk cell) : 8 ∣ cell.bits.length := by
  obtain ⟨chunk, hbits, -⟩ := h.bytes
  rw [hbits, bytesBits_length]
  exact dvd_mul_right 8 _

theorem HoldsChunk.short {cell : Cell} (h : HoldsChunk cell) :
    cell.data.length ≤ bytesPerCell := by
  obtain ⟨chunk, hbits, hlength⟩ := h.bytes
  rwa [data_eq hbits]

/-- A chain built from some position holds the rest of the buffer, a chunk in each cell. -/
theorem buildCellChain_chain (startIndex : ℕ) (buffer : List UInt8) :
    ∃ c, buildCellChain startIndex buffer = .ok c ∧
      (∀ cell ∈ chainCells c, HoldsChunk cell) ∧ chainBytes c = buffer.drop startIndex := by
  induction hn : buffer.length - startIndex using Nat.strong_induction_on
    generalizing startIndex with
  | _ n ih =>
    obtain ⟨endIndex, hend⟩ : ∃ e, e = min (startIndex + bytesPerCell) buffer.length := ⟨_, rfl⟩
    obtain ⟨chunk, hchunk⟩ : ∃ l, l = (buffer.drop startIndex).take (endIndex - startIndex) :=
      ⟨_, rfl⟩
    have hlength : chunk.length ≤ bytesPerCell := by
      rw [hchunk, List.length_take]
      omega
    have hfits : (bytesBits chunk).length ≤ 1023 := by
      rw [bytesBits_length]
      rw [bytesPerCell] at hlength
      omega
    rw [buildCellChain]
    simp only [← hend, ← hchunk, storeBytes_ok, parsing_ok rfl, List.nil_append]
    by_cases hlt : endIndex < buffer.length
    · obtain ⟨next, hnext, hchunks, hrest⟩ := ih (buffer.length - endIndex)
        (by rw [bytesPerCell] at hend; omega) endIndex rfl
      obtain ⟨c, hc, hbits, hrefs⟩ := CellBuilder.build_ok
        (b := ⟨bytesBits chunk, [next]⟩) hfits (by simp)
      refine ⟨c, ?_, ?_, ?_⟩
      · simp only [hlt, if_true, hnext, bind, Except.bind]
        rw [parsing_ok (CellBuilder.storeReference_ok next (by simp))]
        exact parsing_ok hc
      · rw [chainCells_link hrefs, List.forall_mem_cons]
        exact ⟨⟨⟨chunk, hbits, hlength⟩, by simp [hrefs]⟩, hchunks⟩
      · rw [chainBytes, chainCells_link hrefs, List.flatMap_cons, ← chainBytes, hrest,
          data_eq hbits, hchunk, ← List.take_append_drop (endIndex - startIndex)
          (buffer.drop startIndex), List.drop_drop]
        congr 2
        · simp
        · omega
    · obtain ⟨c, hc, hbits, hrefs⟩ := CellBuilder.build_ok
        (b := ⟨bytesBits chunk, []⟩) hfits (by simp)
      refine ⟨c, ?_, ?_, ?_⟩
      · simp only [hlt, if_false, bind, Except.bind]
        exact parsing_ok hc
      · rw [chainCells_last hrefs, List.forall_mem_singleton]
        exact ⟨⟨chunk, hbits, hlength⟩, by simp [hrefs]⟩
      · rw [chainBytes, chainCells_last hrefs, List.flatMap_singleton, data_eq hbits, hchunk]
        exact List.take_of_length_le (by rw [List.length_drop]; omega)

theorem bufferToCell_chain (buffer : List UInt8) :
    ∃ c, bufferToCell buffer = .ok c ∧
      (∀ cell ∈ chainCells c, HoldsChunk cell) ∧ cellToBuffer c = buffer := by
  obtain ⟨c, hc, hchunks, hbytes⟩ := buildCellChain_chain 0 buffer
  have hread : cellToBuffer c = chainBytes c := by
    apply cellToBuffer_short
    · intro cell hcell
      exact (hchunks cell hcell).wholeBytes
    · intro cell hcell
      exact (hchunks cell hcell).short
  exact ⟨c, hc, hchunks, hread.trans hbytes⟩

/-- Any buffer can be laid out in cells, and is read back from them. -/
theorem bufferToCell_ok (buffer : List UInt8) :
    ∃ c, bufferToCell buffer = .ok c ∧ cellToBuffer c = buffer := by
  obtain ⟨c, hc, -, hbuffer⟩ := bufferToCell_chain buffer
  exact ⟨c, hc, hbuffer⟩

theorem bufferToCell_string (s : String) :
    ∃ c, bufferToCell (asBytes s) = .ok c ∧ cellToString c = .ok s := by
  obtain ⟨c, hc, hbuffer⟩ := bufferToCell_ok (asBytes s)
  exact ⟨c, hc, by rw [cellToString, hbuffer, fromUtf8_asBytes]⟩

end ByteEncodings
