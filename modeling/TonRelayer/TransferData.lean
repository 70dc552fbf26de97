import TonRelayer.RenderedIds

/-! The data of an interchain transfer.
Every other field of variable length is read along the chain of its cells; the data are taken
from the first cell, and the hash in the event is the hash of what was taken. -/
namespace TransferData

open ExceptRules Cells ByteEncodings RelayerExecute MessageDecoders Types GasCalculator
open TransactionParsers EventAuthenticity ItsAddresses RenderedIds

section FirstCell

variable {d : List UInt8} {chain : Cell}

theorem bitsData_bytesBits (bytes : List UInt8) :
    bitsData (bytesBits bytes) bytes.length = bytes := by
  induction bytes with
  | nil => rfl
  | cons b bytes ih =>
    have hbits : bytesBits (b :: bytes) = byteBits b ++ bytesBits bytes := rfl
    have hfull : 8 - (byteBits b ++ bytesBits bytes).length = 0 := by
      rw [List.length_append, byteBits_length]
      omega
    rw [hbits, List.length_cons, bitsData, hfull, List.replicate_zero, List.append_nil,
      List.take_left' (byteBits_length b), List.drop_left' (byteBits_length b), ofNat_byteBits, ih]

/-- The first cell of a chain holds the first 96 bytes of the buffer. -/
theorem first_cell_data (h : bufferToCell d = .ok chain) : chain.data = d.take bytesPerCell := by
  have hchunk : (d.drop 0).take (min (0 + bytesPerCell) d.length - 0) = d.take bytesPerCell := by
    rw [List.drop_zero, Nat.sub_zero, Nat.zero_add, ← List.take_take, List.take_length]
  have hbits : chain.bits = bytesBits (d.take bytesPerCell) := by
    rw [bufferToCell, buildCellChain, hchunk, storeBytes_ok] at h
    have hbuild {b : CellBuilder} (hb : parsing b.build = .ok chain) : chain.bits = b.bits := by
      rw [parsing, mapError_eq_ok, CellBuilder.build] at hb
      split at hb
      · split at hb
        · cases hb
          rfl
        · cases hb
      · cases hb
    obtain ⟨b, hb, h⟩ := bind_eq_ok.mp h
    cases hb
    split at h
    · obtain ⟨next, -, h⟩ := bind_eq_ok.mp h
      obtain ⟨b', hb', h⟩ := bind_eq_ok.mp h
      rw [CellBuilder.storeReference_ok next (by simp)] at hb'
      cases hb'
      exact hbuild h
    · exact hbuild h
  have hcount : ((bytesBits (d.take bytesPerCell)).length + 7) / 8 =
      (d.take bytesPerCell).length := by
    rw [bytesBits_length]
    omega
  rw [Cell.data, hbits, hcount, bitsData_bytesBits]

end FirstCell

def dataHash : Event → Option String
  | .itsInterchainTransfer _ _ _ _ _ _ dataHash => some dataHash
  | _ => none

variable {D : Type} {lib : Libraries D} {text : String} {c chain : Cell} {h : ℕ} {d : List UInt8}

/-- The log gives back all of `d`, and its events the hash of all of it. -/
def CoversData (lib : Libraries D) (text : String) (d : List UInt8) : Prop :=
  ∃ m, fromBocB64 lib.fromBocB64 LogITSInterchainTransferMessage.decode text = .ok m ∧
    m.data = d ∧ (d ≠ [] → ∀ p id, p.log = some m →
      ∃ e, ParserITSInterchainTransfer.event lib p (some id) = .ok e ∧
        dataHash e = some (toString (payloadHash lib.keccak256 d)))

theorem event_dataHash {m : LogITSInterchainTransferMessage} {p : LogParser _}
    (hp : p.log = some m) (hm : m.data ≠ []) (id : String) :
    ∃ e, ParserITSInterchainTransfer.event lib p (some id) = .ok e ∧
      dataHash e = some (toString (payloadHash lib.keccak256 m.data)) := by
  have hlog : p.getLog = .ok m := by rw [LogParser.getLog, hp]
  rw [ParserITSInterchainTransfer.event, hlog]
  refine ⟨_, rfl, ?_⟩
  rw [dataHash, if_neg hm]

/-- All of the data is covered exactly when it fits one cell; the log is decoded only when the
sender's hash has no leading zero digit. -/
theorem transfer_data_iff (hh : h < 2 ^ 256) (hboc : lib.fromBocB64 text = .ok c)
    (hc : TransferLog c h) (hd : bufferToCell d = .ok chain)
    (href : c.references[3]? = some chain) :
    CoversData lib text d ↔ d.length ≤ bytesPerCell ∧ 16 ^ 63 ≤ h := by
  obtain ⟨f, -, hdata, hrun⟩ := transfer_decode_data hh hc
  have htaken (a : TonAddress) : (f a).1.data = d.take bytesPerCell := by
    have hsome := hdata a
    rw [href, Option.map_some, first_cell_data hd] at hsome
    exact (Option.some.inj hsome).symm
  rw [addressFromHex_radix hh] at hrun
  constructor
  · rintro ⟨m, hm, hall, -⟩
    obtain ⟨p, hdecode⟩ := (fromBocB64_eq_ok hboc).mp hm
    rw [hrun] at hdecode
    by_cases hlow : 16 ^ 63 ≤ h
    · rw [if_pos hlow] at hdecode
      have hf : (f (addressOf h)).1 = m := congrArg Prod.fst (Except.ok.inj hdecode)
      refine ⟨?_, hlow⟩
      rw [← hf, htaken] at hall
      rw [← hall, List.length_take]
      omega
    · rw [if_neg hlow] at hdecode
      cases hdecode
  · rintro ⟨hfits, hlow⟩
    rw [if_pos hlow] at hrun
    have hall : (f (addressOf h)).1.data = d := by
      rw [htaken, List.take_of_length_le hfits]
    have hm : fromBocB64 lib.fromBocB64 LogITSInterchainTransferMessage.decode text =
        .ok (f (addressOf h)).1 := (fromBocB64_eq_ok hboc).mpr ⟨_, hrun⟩
    refine ⟨_, hm, hall, fun hne p id hp => ?_⟩
    rw [← hall]
    exact event_dataHash hp (by rw [hall]; exact hne) id

section Samples

def chainOf (d : List UInt8) : Cell := (bufferToCell d).toOption.getD emptyCell

theorem chainOf_ok (d : List UInt8) : bufferToCell d = .ok (chainOf d) := by
  obtain ⟨chain, hchain, -⟩ := bufferToCell_ok d
  rw [chainOf, hchain]
  rfl

/-- A transfer from the hash 1000...0 with these data. -/
def dataCell (d : List UInt8) : Cell :=
  builtCell (natToBits 32 opInterchainTransferLog.toNat ++ (natToBits 256 7 ++ natToBits 256 5))
    [numberCell (16 ^ 63), chainCell, builtCell (bytesBits [0xd7]) [], chainOf d]

theorem dataCell_ok (d : List UInt8) :
    (dataCell d).bits = natToBits 32 opInterchainTransferLog.toNat ++
        (natToBits 256 7 ++ natToBits 256 5) ∧
      (dataCell d).references =
        [numberCell (16 ^ 63), chainCell, builtCell (bytesBits [0xd7]) [], chainOf d] :=
  builtCell_ok (by simp) (by simp)

theorem dataCell_log (d : List UInt8) : TransferLog (dataCell d) (16 ^ 63) where
  bits := ⟨_, (dataCell_ok d).1, by simp⟩
  references := ⟨_, _, _, _, (dataCell_ok d).2, numberCell_holds _, "avalanche", chainCell_text⟩

theorem dataCell_chain (d : List UInt8) : (dataCell d).references[3]? = some (chainOf d) := by
  rw [(dataCell_ok d).2]
  rfl

/-- The data 01 02 03, and 97 bytes 01. -/
def shortDataText : String :=
  "te6cckEBBQEAfwAEiAAAARAAAAAAAAAAAAAAAAAAAAAAAAAAAAAAAAAAAAAAAAAABwAAAAAAAAAAAAAAAAAAAAAAAA" ++
  "AAAAAAAAAAAAAAAAAFAQIDBABAEAAAAAAAAAAAAAAAAAAAAAAAAAAAAAAAAAAAAAAAAAAAEmF2YWxhbmNoZQAC1wAG" ++
  "AQIDCErhBQ=="

def longDataText : String :=
  "te6cckEBBgEA4AAEiAAAARAAAAAAAAAAAAAAAAAAAAAAAAAAAAAAAAAAAAAAAAAABwAAAAAAAAAAAAAAAAAAAAAAAA" ++
  "AAAAAAAAAAAAAAAAAFAQIDBABAEAAAAAAAAAAAAAAAAAAAAAAAAAAAAAAAAAAAAAAAAAAAEmF2YWxhbmNoZQAC1wHA" ++
  "AQEBAQEBAQEBAQEBAQEBAQEBAQEBAQEBAQEBAQEBAQEBAQEBAQEBAQEBAQEBAQEBAQEBAQEBAQEBAQEBAQEBAQEBAQ" ++
  "EBAQEBAQEBAQEBAQEBAQEBAQEBAQEBAQEBAQEBBQACARVgyD0="

def dataBoc (text : String) : Except CellError Cell :=
  if text = shortDataText then .ok (dataCell [1, 2, 3])
  else if text = longDataText then .ok (dataCell (List.replicate 97 1))
  else .error .badBoc

def dataLibraries : Libraries ℕ := { sampleLibraries with fromBocB64 := dataBoc }

theorem dataLibraries_boc : dataLibraries.fromBocB64 = dataBoc := rfl

theorem transfer_data_short : CoversData dataLibraries shortDataText [1, 2, 3] := by
  have hboc : dataLibraries.fromBocB64 shortDataText = .ok (dataCell [1, 2, 3]) := by
    rw [dataLibraries_boc, dataBoc, if_pos rfl]
  exact (transfer_data_iff (by norm_num) hboc (dataCell_log _) (chainOf_ok _)
    (dataCell_chain _)).mpr ⟨by decide, le_rfl⟩

/-- Of 97 bytes the log keeps 96. -/
theorem long_data_cut :
    dataLibraries.fromBocB64 longDataText = .ok (dataCell (List.replicate 97 1)) ∧
      TransferLog (dataCell (List.replicate 97 1)) (16 ^ 63) ∧
      (∃ m, fromBocB64 dataLibraries.fromBocB64 LogITSInterchainTransferMessage.decode
        longDataText = .ok m ∧ m.data = List.replicate 96 1) ∧
      ¬ CoversData dataLibraries longDataText (List.replicate 97 1) := by
  have hboc : dataLibraries.fromBocB64 longDataText = .ok (dataCell (List.replicate 97 1)) := by
    rw [dataLibraries_boc, dataBoc, if_neg (by decide +kernel), if_pos rfl]
  have hh : 16 ^ 63 < 2 ^ 256 := by norm_num
  obtain ⟨f, -, hdata, hrun⟩ := transfer_decode_data hh (dataCell_log (List.replicate 97 1))
  have hm : fromBocB64 dataLibraries.fromBocB64 LogITSInterchainTransferMessage.decode
      longDataText = .ok (f (addressOf (16 ^ 63))).1 := by
    rw [addressFromHex_radix hh, if_pos le_rfl] at hrun
    exact (fromBocB64_eq_ok hboc).mpr ⟨_, hrun⟩
  have htaken : (f (addressOf (16 ^ 63))).1.data = List.replicate 96 1 := by
    have hsome := hdata (addressOf (16 ^ 63))
    rw [dataCell_chain, Option.map_some, first_cell_data (chainOf_ok _),
      List.take_replicate] at hsome
    exact (Option.some.inj hsome).symm
  refine ⟨hboc, dataCell_log _, ⟨_, hm, htaken⟩, ?_⟩
  rintro ⟨m, hm', hall, -⟩
  cases hm.symm.trans hm'
  rw [htaken] at hall
  exact absurd (congrArg List.length hall) (by simp)

end Samples

end TransferData
