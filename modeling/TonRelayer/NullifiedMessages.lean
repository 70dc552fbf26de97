import TonRelayer.MessageDecoders

/-! A nullified message as the decoder reads it, from the cells of the execute message that the
relayer sent: the same four references, under another op code. -/
namespace NullifiedMessages

open ExceptRules Cells ByteEncodings RelayerExecute MessageDecoders

variable {m : RelayerExecuteMessage} {bytes : List UInt8} {c outer message inner : Cell}

theorem nullified_opCode :
    hexEncode (bitsData (natToBits 32 opNullifiedSuccessfully.toNat) 4) =
      format08X opNullifiedSuccessfully := by decide +kernel

theorem nullified_decode (h : LaidOut m bytes outer message inner) {rest : List Bool}
    (hbits : c.bits = natToBits 32 opNullifiedSuccessfully.toNat ++ rest)
    (hrefs : c.references = message.references) :
    NullifiedSuccessfullyMessage.decode c.parser =
      .ok (⟨m.messageId, m.sourceChain, m.sourceAddress, m.destinationChain,
        m.destinationAddress.hashPart.toList, hexEncode bytes⟩, ⟨rest, []⟩) := by
  obtain ⟨messageId, sourceChain, sourceAddress, hmessage, hid, hchain, haddress⟩ := h.message
  obtain ⟨payload, address, destination, hinner, hpayload, hhash, hdestination⟩ := h.inner
  have hlift {α : Type} (x : α) (p : CellParser) :
      (liftM (Except.ok x : Except BocError α) : Decoder α) p = .ok (x, p) := rfl
  rw [NullifiedSuccessfullyMessage.decode, Cell.parser, hbits, hrefs, hmessage]
  simp only [decoder_bind, load_opCode, ok_bind, nullified_opCode, ne_eq, not_true, if_false,
    loadString_ok hid, loadString_ok hchain, loadString_ok haddress, load_nextReference,
    Cell.parser, hinner, nextReference_cons, parsing_ok rfl, hlift, hdestination, hpayload, hhash]
  rfl

/-- What the relayer encodes for execution is what the decoder of a nullified message reads, in
every field, whatever the lengths and whatever follows the op code. -/
theorem nullified_decodes_executed (keccak256 : List UInt8 → Bytes32)
    (boc : String → Except CellError Cell) {t : String}
    (hpayload : hexDecode m.payload = some bytes) :
    ∃ outer message, m.toCell keccak256 = .ok outer ∧ outer.references = [message] ∧
      message.references.length = 4 ∧
      ∀ c rest, c.bits = natToBits 32 opNullifiedSuccessfully.toNat ++ rest →
        c.references = message.references → boc t = .ok c →
        fromBocB64 boc NullifiedSuccessfullyMessage.decode t =
          .ok ⟨m.messageId, m.sourceChain, m.sourceAddress, m.destinationChain,
            m.destinationAddress.hashPart.toList, hexEncode bytes⟩ := by
  obtain ⟨outer, message, inner, houter, hlaid⟩ := toCell_laidOut keccak256 hpayload
  refine ⟨outer, message, houter, hlaid.outer, ?_, ?_⟩
  · obtain ⟨_, _, _, hrefs, -⟩ := hlaid.message
    rw [hrefs]
    rfl
  · intro c rest hbits hrefs hboc
    exact (fromBocB64_eq_ok hboc).mpr ⟨_, nullified_decode hlaid hbits hrefs⟩

section Sample

/-- The execute message of 0x2a-1 as it comes back, with a query id after the op code. -/
def nullifiedText : String :=
  "te6cckEBCAEAewAEGAAAAAUAAAAAAAAABwECAwQADDB4MmEtMQASYXZhbGFuY2hlAAgweGQ3A0AEmU9n3FWwnoFKt/" ++
  "/I3zaGtK+yu1PmDq6X7wQ/4D+4KQUGBwACKgBAAQEBAQEBAQEBAQEBAQEBAQEBAQEBAQEBAQEBAQEBAQEACHRvbjJ6" ++
  "bX8k"

def nullifiedCell : Except CellError Cell := do
  let outer ← (sampleMessage.toCell sampleKeccak).mapError fun _ => .badBoc
  let (message, _) ← nextReference outer.parser
  CellBuilder.build
    ⟨natToBits 32 opNullifiedSuccessfully.toNat ++ natToBits 64 7, message.references⟩

def nullifiedBoc (text : String) : Except CellError Cell :=
  if text = nullifiedText then nullifiedCell else .error .badBoc

theorem nullified_decodes_sample :
    fromBocB64 nullifiedBoc NullifiedSuccessfullyMessage.decode nullifiedText =
      .ok ⟨"0x2a-1", "avalanche", "0xd7", "ton2", List.replicate 32 1, "2a"⟩ := by
  obtain ⟨outer, message, houter, hrefs, hfour, hdecode⟩ :=
    nullified_decodes_executed sampleKeccak nullifiedBoc
      (show hexDecode sampleMessage.payload = some [42] by decide) (t := nullifiedText)
  obtain ⟨c, hc, hbits, hcRefs⟩ := CellBuilder.build_ok
    (b := ⟨natToBits 32 opNullifiedSuccessfully.toNat ++ natToBits 64 7, message.references⟩)
    (by simp) (by rw [hfour])
  have hboc : nullifiedBoc nullifiedText = .ok c := by
    have hnext : nextReference outer.parser = .ok (message, ⟨outer.bits, []⟩) := by
      rw [Cell.parser, hrefs]
      rfl
    rw [nullifiedBoc, if_pos rfl, nullifiedCell, houter]
    exact bind_eq_ok.mpr ⟨outer, rfl, bind_eq_ok.mpr ⟨_, hnext, hc⟩⟩
  rw [hdecode c _ hbits hcRefs hboc]
  rfl

end Sample

end NullifiedMessages
