import TonRelayer.MessageDecoders

/-! Byte chains that others have laid out.
A cell has room for 127 bytes. `cell_to_buffer` stops after the 96 that our own encoder puts
into one, so what it makes of our chains is right, and of longer cells it drops the rest. -/
namespace CellChains

open ExceptRules Cells ByteEncodings MessageDecoders

section Loop

/-- The inner loop of `cell_to_buffer`: a number of eight bits, and the last of its digits. -/
def readLoop : ℕ → CellParser → List UInt8 × CellParser
  | 0, p => ([], p)
  | n + 1, p =>
    match loadUint 8 p with
    | .error _ => ([], p)
    | .ok (val, p) =>
      let (bytes, p) := readLoop n p
      ((toBytesBe val).getLast?.toList ++ bytes, p)

theorem toBytesBe_last {n : ℕ} (h : n < 256) : (toBytesBe n).getLast? = some (UInt8.ofNat n) := by
  by_cases hn : n = 0
  · subst hn
    rfl
  · rw [toBytesBe, if_neg hn, Nat.digits_of_lt 256 n hn h]
    rfl

/-- The numbers give the bytes back, zeros included, and the references are left alone. -/
theorem readLoop_eq (n : ℕ) (p : CellParser) :
    (readLoop n p).1 = readBytes n p.bits ∧ (readLoop n p).2.references = p.references := by
  induction n generalizing p with
  | zero => exact ⟨rfl, rfl⟩
  | succ n ih =>
    by_cases h : 8 ≤ p.bits.length
    · have hval : bitsToNat (p.bits.take 8) < 256 := by
        have hlt := bitsToNat_lt (p.bits.take 8)
        rwa [List.length_take, Nat.min_eq_left h] at hlt
      obtain ⟨hbytes, hrefs⟩ := ih { p with bits := p.bits.drop 8 }
      rw [readLoop, loadUint_ok h, readBytes, if_pos h]
      dsimp only
      rw [toBytesBe_last hval, hbytes]
      exact ⟨rfl, hrefs⟩
    · have hfail : loadUint 8 p = .error .notEnoughBits := by
        have hrun : loadUint 8 p = loadBits 8 p >>= fun r => .ok (bitsToNat r.1, r.2) := rfl
        rw [hrun, loadBits, if_neg h]
        rfl
      rw [readLoop, hfail, readBytes, if_neg h]
      exact ⟨rfl, rfl⟩

/-- One round of the outer loop, which ends where there is no next reference. -/
theorem cellToBuffer_loop (c : Cell) :
    cellToBuffer c = (readLoop bytesPerCell c.parser).1 ++
      ((nextReference (readLoop bytesPerCell c.parser).2).toOption.elim []
        fun r => cellToBuffer r.1) := by
  obtain ⟨hbytes, hrefs⟩ := readLoop_eq bytesPerCell c.parser
  rw [cellToBuffer_eq, hbytes, nextReference, hrefs]
  change _ = readBytes bytesPerCell c.bits ++ _
  congr 1
  cases h : c.references with
  | nil => simp [Cell.parser, h, Except.toOption]
  | cons next rest => simp [Cell.parser, h, Except.toOption]

end Loop

section Foreign

variable {α β : Type} {c : Cell}

theorem length_flatMap_take_le (f : α → List β) (l : List α) (n : ℕ) :
    (l.flatMap fun a => (f a).take n).length ≤ (l.flatMap f).length := by
  induction l with
  | nil => exact le_rfl
  | cons a l ih =>
    simp only [List.flatMap_cons, List.length_append, List.length_take]
    omega

/-- Cut to its first `n` elements, each part is still there in full exactly when it is short. -/
theorem flatMap_take_eq_iff {f : α → List β} {l : List α} {n : ℕ} :
    (l.flatMap fun a => (f a).take n) = l.flatMap f ↔ ∀ a ∈ l, (f a).length ≤ n := by
  induction l with
  | nil => simp
  | cons a l ih =>
    rw [List.forall_mem_cons, List.flatMap_cons, List.flatMap_cons, ← ih]
    constructor
    · intro h
      have hrest := length_flatMap_take_le f l n
      have hlength := congrArg List.length h
      rw [List.length_append, List.length_append, List.length_take] at hlength
      have hshort : (f a).length ≤ n := by omega
      rw [List.take_of_length_le hshort] at h
      exact ⟨hshort, List.append_cancel_left h⟩
    · rintro ⟨hshort, h⟩
      rw [h, List.take_of_length_le hshort]

theorem cellToBuffer_eq_iff (h : WholeBytes c) : cellToBuffer c = chainBytes c ↔ ShortCells c := by
  rw [cellToBuffer_take h]
  exact flatMap_take_eq_iff

theorem fromUtf8_eq_ok {bytes : List UInt8} {s : String} :
    fromUtf8 bytes = .ok s ↔ bytes = asBytes s := by
  constructor
  · intro h
    rw [fromUtf8, String.fromUTF8?] at h
    split at h
    · rename_i s' hs
      cases h
      split at hs
      · cases hs
        rfl
      · cases hs
    · cases h
  · rintro rfl
    exact fromUtf8_asBytes s

theorem cellToString_eq_iff (h : WholeBytes c) {s : String} (hs : chainBytes c = asBytes s) :
    cellToString c = .ok s ↔ ShortCells c := by
  rw [cellToString, fromUtf8_eq_ok, ← hs]
  exact cellToBuffer_eq_iff h

theorem hexEncode_injective {bytes bytes' : List UInt8} (h : hexEncode bytes = hexEncode bytes') :
    bytes = bytes' := by
  have hdecode := hexDecode_hexEncode bytes
  rw [h, hexDecode_hexEncode] at hdecode
  exact (Option.some.inj hdecode).symm

theorem loadString_rest {bits : List Bool} {refs : List Cell} {s : String} {p : CellParser}
    (h : loadString ⟨bits, c :: refs⟩ = .ok (s, p)) : p = ⟨bits, refs⟩ := by
  rw [loadString, decoder_bind, load_nextReference, ok_bind] at h
  dsimp only at h
  cases hread : cellToString c with
  | error e =>
    rw [hread] at h
    cases h
  | ok text =>
    rw [hread] at h
    cases h
    rfl

/-- The payload of a call is read from the third reference. -/
theorem callContract_payload_eq {call chain address payload : Cell} {rest : List Cell}
    {m : CallContractMessage} {p : CellParser}
    (hrefs : call.references = chain :: address :: payload :: rest)
    (h : CallContractMessage.decode call.parser = .ok (m, p)) :
    m.payload = hexEncode (cellToBuffer payload) := by
  rw [Cell.parser, hrefs] at h
  obtain ⟨s₁, p₁, hs₁, h⟩ := decoder_ok h
  obtain ⟨s₂, p₂, hs₂, h⟩ := decoder_ok h
  rw [loadString_rest hs₁] at hs₂
  rw [loadString_rest hs₂, decoder_bind, loadBuffer_ok, ok_bind] at h
  obtain ⟨source, p₄, -, h⟩ := decoder_ok h
  obtain ⟨hash, p₅, -, h⟩ := decoder_ok h
  cases h
  rfl

/-- A chain of whole bytes is read in full, as bytes, as text or as the payload of a call,
exactly when none of its cells holds more than 96 bytes. -/
theorem chains_decoded_iff (h : WholeBytes c) :
    (cellToBuffer c = chainBytes c ↔ ShortCells c) ∧
    (∀ s, chainBytes c = asBytes s → (cellToString c = .ok s ↔ ShortCells c)) ∧
    ∀ (call chain address : Cell) (rest : List Cell) (m : CallContractMessage) (p : CellParser),
      call.references = chain :: address :: c :: rest →
      CallContractMessage.decode call.parser = .ok (m, p) →
      (m.payload = hexEncode (chainBytes c) ↔ ShortCells c) := by
  refine ⟨cellToBuffer_eq_iff h, ?_, ?_⟩
  · intro s hs
    exact cellToString_eq_iff h hs
  · intro call chain address rest m p hrefs hdecode
    rw [callContract_payload_eq hrefs hdecode, ← cellToBuffer_eq_iff h]
    constructor
    · exact hexEncode_injective
    · exact congrArg hexEncode

end Foreign

section Samples

def byteCell (bytes : List UInt8) (h : 8 * bytes.length ≤ 1023) (next : Option Cell) : Cell :=
  .mk ⟨bytesBits bytes, (bytesBits_length bytes).le.trans h⟩
    ⟨next.toList.length, by cases next <;> simp⟩ next.toList.get

section Parts

variable {bytes : List UInt8} {h : 8 * bytes.length ≤ 1023} {next : Option Cell}

theorem byteCell_data : (byteCell bytes h next).data = bytes := data_eq rfl

theorem byteCell_references : (byteCell bytes h next).references = next.toList :=
  List.ofFn_get next.toList

theorem byteCell_whole : 8 ∣ (byteCell bytes h next).bits.length := by
  change 8 ∣ (bytesBits bytes).length
  rw [bytesBits_length]
  exact dvd_mul_right 8 _

end Parts

def tailCell : Cell := byteCell [97, 114] (by decide) none

/-- Six bytes in two cells: `axel` and `ar`. -/
def twoCells : Cell := byteCell [97, 120, 101, 108] (by decide) (some tailCell)

theorem chainCells_twoCells : chainCells twoCells = [twoCells, tailCell] := by
  have htail : chainCells tailCell = [tailCell] := chainCells_last byteCell_references
  rw [← htail]
  exact chainCells_link byteCell_references

theorem chains_decoded_two_cells :
    cellToBuffer twoCells = [97, 120, 101, 108, 97, 114] ∧
      cellToString twoCells = .ok "axelar" := by
  have hwhole : WholeBytes twoCells := by
    rw [WholeBytes, chainCells_twoCells]
    simp [twoCells, tailCell, byteCell_whole]
  have hshort : ShortCells twoCells := by
    rw [ShortCells, chainCells_twoCells]
    simp [twoCells, tailCell, byteCell_data, bytesPerCell]
  have hbytes : chainBytes twoCells = [97, 120, 101, 108, 97, 114] := by
    rw [chainBytes, chainCells_twoCells]
    simp [twoCells, tailCell, byteCell_data]
  obtain ⟨hbuffer, hstring, -⟩ := chains_decoded_iff hwhole
  rw [hbuffer.mpr hshort, hbytes]
  exact ⟨rfl, (hstring "axelar" (by rw [hbytes]; decide)).mpr hshort⟩

/-- One cell of 97 letters. -/
def longCell : Cell := byteCell (List.replicate 97 97) (by decide) none

theorem long_cell_loses_byte :
    WholeBytes longCell ∧ chainBytes longCell = List.replicate 97 97 ∧
      cellToBuffer longCell = List.replicate 96 97 := by
  have hcells : chainCells longCell = [longCell] := chainCells_last byteCell_references
  have hwhole : WholeBytes longCell := by
    rw [WholeBytes, hcells, List.forall_mem_singleton]
    exact byteCell_whole
  refine ⟨hwhole, ?_, ?_⟩
  · rw [chainBytes, hcells, List.flatMap_singleton]
    exact byteCell_data
  · rw [cellToBuffer_take hwhole, hcells, List.flatMap_singleton, longCell, byteCell_data]
    rfl

end Samples

section RoundTrip

/-- Any buffer is laid out in cells of at most 96 bytes with at most one reference, and read
back from them; so is the text of any string. -/
theorem buffers_round_trip :
    (∀ buffer, ∃ c, bufferToCell buffer = .ok c ∧
      (∀ cell ∈ chainCells c, HoldsChunk cell) ∧ cellToBuffer c = buffer) ∧
    ∀ s, ∃ c, bufferToCell (asBytes s) = .ok c ∧ cellToString c = .ok s := by
  constructor
  · intro buffer
    exact bufferToCell_chain buffer
  · intro s
    exact bufferToCell_string s

end RoundTrip

end CellChains
