import TonRelayer.CellReading
import TonRelayer.ExactReaders
import TonRelayer.TraceParsing

/-! The formats of the logs.
Each decoder accepts precisely the cells that start with the fields of its log, one after the
other in the bits and in the references, and returns those fields. -/
namespace LogFormats

open ExceptRules Cells ByteEncodings CellReading MessageDecoders ExactReaders TraceParsing

section Pieces

/-- Bits and references, each continued by what follows. -/
instance : Monoid CellParser where
  mul p q := ⟨p.bits ++ q.bits, p.references ++ q.references⟩
  one := ⟨[], []⟩
  mul_assoc _ _ _ := congrArg₂ CellParser.mk (List.append_assoc _ _ _) (List.append_assoc _ _ _)
  one_mul _ := rfl
  mul_one _ := congrArg₂ CellParser.mk (List.append_nil _) (List.append_nil _)

theorem piece_mul (bits bits' : List Bool) (refs refs' : List Cell) :
    (⟨bits, refs⟩ * ⟨bits', refs'⟩ : CellParser) = ⟨bits ++ bits', refs ++ refs'⟩ := rfl

end Pieces

section Primitives

def uint (n : ℕ) : Format CellParser ℕ := fun x m => x < 2 ^ n ∧ m = ⟨natToBits n x, []⟩

def int8 : Format CellParser ℤ := fun x m =>
  -128 ≤ x ∧ x < 128 ∧ m = ⟨natToBits 8 (x % 256).toNat, []⟩

def bytes32 : Format CellParser Bytes32 := fun hash m => m = ⟨bytesBits hash.toList, []⟩

def opCode (expected : UInt32) : Format CellParser Unit := fun _ m =>
  m = ⟨natToBits 32 expected.toNat, []⟩

/-- The null address, or the tag, a bit that is not looked at, the workchain and the hash. -/
def address : Format CellParser TonAddress := fun a m =>
  (a = TonAddress.null ∧ m = ⟨[false, false], []⟩) ∨
  (-128 ≤ a.workchain ∧ a.workchain < 128 ∧ ∃ anycast, m = ⟨[true, false, anycast] ++
    natToBits 8 (a.workchain % 256).toNat ++ bytesBits a.hashPart.toList, []⟩)

/-- A byte count in four bits, and a number that fits in that many bytes. -/
def coins : Format CellParser ℕ := fun x m =>
  ∃ n < 16, x < 2 ^ (8 * n) ∧ m = ⟨natToBits 4 n ++ natToBits (8 * n) x, []⟩

def reference : Format CellParser Cell := fun c m => m = ⟨[], [c]⟩

def string : Format CellParser String := fun text m =>
  ∃ c, cellToString c = .ok text ∧ m = ⟨[], [c]⟩

def buffer : Format CellParser (List UInt8) := fun bytes m =>
  ∃ c, cellToBuffer c = bytes ∧ m = ⟨[], [c]⟩

/-- The referenced cell starts with a piece of the format. -/
def inCell {α : Type} (F : Format CellParser α) : Format CellParser α := fun a m =>
  ∃ c piece rest, c.parser = piece * rest ∧ F a piece ∧ m = ⟨[], [c]⟩

theorem loadBits_exact (n : ℕ) :
    Exact (loadBits n) fun bits m => bits.length = n ∧ m = ⟨bits, []⟩ := by
  intro p bits p'
  constructor
  · intro h
    rw [loadBits] at h
    split at h
    · rename_i hn
      cases h
      refine ⟨_, ⟨by simpa using hn, rfl⟩, ?_⟩
      rw [piece_mul, List.take_append_drop, List.nil_append]
    · cases h
  · rintro ⟨m, ⟨hlength, rfl⟩, rfl⟩
    exact loadBits_append hlength

theorem loadUint_exact (n : ℕ) : Exact (loadUint n) (uint n) := by
  refine exact_congr (exact_bind (loadBits_exact n) fun bits => exact_pure (bitsToNat bits)) ?_
  intro x m
  constructor
  · rintro ⟨bits, u, v, ⟨rfl, rfl⟩, ⟨rfl, rfl⟩, rfl⟩
    rw [mul_one]
    exact ⟨bitsToNat_lt bits, by rw [natToBits_bitsToNat]⟩
  · rintro ⟨hx, rfl⟩
    exact ⟨natToBits n x, _, 1, ⟨natToBits_length n x, rfl⟩,
      ⟨(bitsToNat_natToBits hx).symm, rfl⟩, (mul_one _).symm⟩

theorem bmod_byte {u : ℕ} (hu : u < 2 ^ 8) : -128 ≤ Int.bmod u (2 ^ 8) ∧
    Int.bmod u (2 ^ 8) < 128 ∧ (Int.bmod u (2 ^ 8) % 256).toNat = u := by
  rw [Int.bmod_def]
  split <;> omega

theorem bmod_of_byte {x : ℤ} (h : -128 ≤ x ∧ x < 128) :
    Int.bmod ((x % 256).toNat : ℕ) (2 ^ 8) = x := by
  rw [Int.toNat_of_nonneg (by omega), Int.bmod_def]
  split <;> omega

theorem loadInt_exact : Exact (loadInt 8) int8 := by
  refine exact_congr (exact_bind (loadUint_exact 8) fun u => exact_pure (Int.bmod u (2 ^ 8))) ?_
  intro x m
  constructor
  · rintro ⟨u, _, _, ⟨hu, rfl⟩, ⟨hx, rfl⟩, rfl⟩
    obtain ⟨hlow, hhigh, hback⟩ := bmod_byte hu
    rw [← hx] at hlow hhigh hback
    exact ⟨hlow, hhigh, by rw [hback, mul_one]⟩
  · rintro ⟨hlow, hhigh, rfl⟩
    exact ⟨(x % 256).toNat, _, 1, ⟨by omega, rfl⟩, ⟨(bmod_of_byte ⟨hlow, hhigh⟩).symm, rfl⟩,
      (mul_one _).symm⟩

theorem loadBytes32_exact : Exact loadBytes32 bytes32 := by
  intro p hash p'
  constructor
  · intro h
    obtain ⟨bits, q, hbits, -⟩ := parser_ok h
    obtain ⟨m, ⟨hlength, rfl⟩, rfl⟩ := (loadBits_exact 256 _ _ _).mp hbits
    have hbytes : bytesBits (bitsData bits 32) = bits := bytesBits_bitsData hlength
    obtain ⟨hash', hhash'⟩ : ∃ hash' : Bytes32, hash'.toList = bitsData bits 32 :=
      ⟨⟨_, bitsData_length bits 32⟩, rfl⟩
    have hread : loadBytes32 ⟨bytesBits hash'.toList ++ q.bits, q.references⟩ = .ok (hash', q) :=
      loadBytes32_append hash'
    rw [hhash', hbytes] at hread
    cases hread.symm.trans h
    exact ⟨_, rfl, by rw [hhash', hbytes]⟩
  · rintro ⟨m, rfl, rfl⟩
    exact loadBytes32_append hash

/-- The tag, and what follows it. -/
theorem loadAddress_bind : loadAddress = (loadUint 2 >>= fun tag =>
    if tag = 0 then pure TonAddress.null else if tag = 2 then loadStandard
    else throw .badAddress : Parser TonAddress) := by
  funext p
  rw [loadAddress_eq, reader_bind]
  refine congrArg (loadUint 2 p >>= ·) (funext fun r => ?_)
  by_cases hnull : r.1 = 0
  · rw [if_pos hnull, if_pos hnull]
    rfl
  · by_cases hstandard : r.1 = 2
    · rw [if_neg hnull, if_neg hnull, if_pos hstandard, if_pos hstandard]
    · rw [if_neg hnull, if_neg hnull, if_neg hstandard, if_neg hstandard]
      rfl

theorem loadStandard_exact : Exact loadStandard fun a m => -128 ≤ a.workchain ∧
    a.workchain < 128 ∧ ∃ anycast, m = ⟨[anycast] ++ natToBits 8 (a.workchain % 256).toNat ++
      bytesBits a.hashPart.toList, []⟩ := by
  refine exact_congr (exact_sequence (exact_skip (loadUint_exact 1) fun _ =>
    exact_field TonAddress.workchain loadInt_exact fun workchain =>
      exact_field TonAddress.hashPart loadBytes32_exact fun hashPart =>
        exact_done (⟨workchain, hashPart⟩ : TonAddress) fun a => ?_)) fun a m => ⟨?_, ?_⟩
  · cases a
    simp
  · rintro ⟨_, _, ⟨x, -, rfl⟩, ⟨_, _, ⟨hlow, hhigh, rfl⟩, ⟨_, _, rfl, rfl, rfl⟩, rfl⟩, rfl⟩
    exact ⟨hlow, hhigh, decide (x % 2 = 1), by rw [mul_one]; rfl⟩
  · rintro ⟨hlow, hhigh, anycast, rfl⟩
    have hbit : natToBits 1 anycast.toNat = [anycast] := by
      cases anycast <;> rfl
    exact ⟨⟨[anycast], []⟩, _, ⟨anycast.toNat, by cases anycast <;> decide, by rw [hbit]⟩,
      ⟨_, _, ⟨hlow, hhigh, rfl⟩, ⟨_, 1, rfl, rfl, rfl⟩, rfl⟩, by rw [mul_one]; rfl⟩

theorem loadAddress_exact : Exact loadAddress address := by
  rw [loadAddress_bind]
  refine exact_congr (exact_bind (loadUint_exact 2) fun tag => exact_ite (exact_pure _)
    (exact_ite loadStandard_exact (exact_throw _))) fun a m => ⟨?_, ?_⟩
  · rintro ⟨tag, _, v, ⟨-, rfl⟩, hv, rfl⟩
    split at hv
    · rename_i htag
      obtain ⟨rfl, rfl⟩ := hv
      exact .inl ⟨rfl, by rw [htag, mul_one]; rfl⟩
    · split at hv
      · rename_i htag
        obtain ⟨hlow, hhigh, anycast, rfl⟩ := hv
        exact .inr ⟨hlow, hhigh, anycast, by rw [htag]; rfl⟩
      · exact hv.elim
  · rintro (⟨rfl, rfl⟩ | ⟨hlow, hhigh, anycast, rfl⟩)
    · exact ⟨0, _, 1, ⟨by decide, rfl⟩, ⟨rfl, rfl⟩, (mul_one _).symm⟩
    · exact ⟨2, _, _, ⟨by decide, rfl⟩, ⟨hlow, hhigh, anycast, rfl⟩, rfl⟩

theorem loadCoins_exact : Exact loadCoins coins := by
  refine exact_congr (exact_bind (loadUint_exact 4) fun n => loadUint_exact (8 * n))
    fun x m => ⟨?_, ?_⟩
  · rintro ⟨n, _, _, ⟨hn, rfl⟩, ⟨hx, rfl⟩, rfl⟩
    exact ⟨n, hn, hx, rfl⟩
  · rintro ⟨n, hn, hx, rfl⟩
    exact ⟨n, _, _, ⟨hn, rfl⟩, ⟨hx, rfl⟩, rfl⟩

theorem nextReference_exact : Exact nextReference reference := by
  rintro ⟨bits, refs⟩ c p'
  constructor
  · intro h
    cases refs with
    | nil => cases h
    | cons c' refs =>
      cases h
      exact ⟨_, rfl, rfl⟩
  · rintro ⟨m, rfl, h⟩
    rw [h]
    rfl

theorem load_exact {α : Type} {parse : Parser α} {F : Format CellParser α} (h : Exact parse F) :
    Exact (load parse) F := exact_mapError (fun e => BocError.bocParsingError (.cell e)) h

theorem loadBuffer_exact : Exact loadBuffer buffer := by
  refine exact_congr (exact_bind (load_exact nextReference_exact) fun c =>
    exact_pure (cellToBuffer c)) fun bytes m => ⟨?_, ?_⟩
  · rintro ⟨c, _, _, rfl, ⟨rfl, rfl⟩, rfl⟩
    exact ⟨c, rfl, mul_one _⟩
  · rintro ⟨c, rfl, rfl⟩
    exact ⟨c, _, 1, rfl, ⟨rfl, rfl⟩, (mul_one _).symm⟩

theorem loadString_exact : Exact loadString string := by
  refine exact_congr (exact_bind (load_exact nextReference_exact) fun c =>
    exact_lift (cellToString c)) fun text m => ⟨?_, ?_⟩
  · rintro ⟨c, _, _, rfl, ⟨hc, rfl⟩, rfl⟩
    exact ⟨c, hc, mul_one _⟩
  · rintro ⟨c, hc, rfl⟩
    exact ⟨c, _, 1, rfl, ⟨hc, rfl⟩, (mul_one _).symm⟩

theorem load_parseCell {α : Type} (parse : Parser α) (c : Cell) :
    load (parseCell c parse) = readAt (load parse) c.parser := by
  funext p
  rw [load, parseCell, readAt, load]
  cases parse c.parser <;> rfl

theorem inCell_exact {α : Type} {x : Decoder α} {F : Format CellParser α} (h : Exact x F) :
    Exact (load nextReference >>= fun c => (readAt x c.parser : Decoder α)) (inCell F) := by
  refine exact_congr (exact_bind (load_exact nextReference_exact) fun c =>
    readAt_exact h c.parser) fun a m => ⟨?_, ?_⟩
  · rintro ⟨c, _, _, rfl, ⟨⟨piece, rest, hc, hpiece⟩, rfl⟩, rfl⟩
    exact ⟨c, piece, rest, hc, hpiece, mul_one _⟩
  · rintro ⟨c, piece, rest, hc, hpiece, rfl⟩
    exact ⟨c, _, 1, rfl, ⟨⟨piece, rest, hc, hpiece⟩, rfl⟩, (mul_one _).symm⟩

theorem loadBytes_exact (n : ℕ) :
    Exact (loadBytes n) fun bytes m => bytes.length = n ∧ m = ⟨bytesBits bytes, []⟩ := by
  refine exact_congr (exact_bind (loadBits_exact (8 * n)) fun bits =>
    exact_pure (bitsData bits n)) fun bytes m => ⟨?_, ?_⟩
  · rintro ⟨bits, _, _, ⟨hlength, rfl⟩, ⟨rfl, rfl⟩, rfl⟩
    exact ⟨bitsData_length bits n, by rw [bytesBits_bitsData hlength, mul_one]⟩
  · rintro ⟨hlength, rfl⟩
    refine ⟨bytesBits bytes, _, 1, ⟨by rw [bytesBits_length, hlength], rfl⟩, ⟨?_, rfl⟩,
      (mul_one _).symm⟩
    refine bytesBits_injective ?_
    rw [bytesBits_bitsData (by rw [bytesBits_length, hlength])]

theorem checkOpCode_exact (expected : UInt32) : Exact (checkOpCode expected) (opCode expected) := by
  intro p u p'
  constructor
  · intro h
    obtain ⟨bytes, q, hbytes, hrest⟩ := decoder_ok h
    obtain ⟨m, ⟨hlength, rfl⟩, rfl⟩ := (load_exact (loadBytes_exact 4) _ _ _).mp hbytes
    split at hrest
    · rename_i hcompare
      cases hrest
      rw [compareOpCode, Bool.and_eq_true_iff, decide_eq_true_eq, decide_eq_true_eq] at hcompare
      have hbits := natToBits_bitsToNat (bytesBits bytes)
      rw [bytesBits_length, hlength, ← bytesToNat, hcompare.2] at hbits
      exact ⟨_, rfl, by rw [← hbits]⟩
    · cases hrest
  · rintro ⟨m, rfl, rfl⟩
    exact checkOpCode_ok expected p'.bits

end Primitives

section Fields

/-- What the inner cell of an approval holds. -/
def approvedInner : List (Format CellParser TonCCMessage) :=
  [field TonCCMessage.payloadHash bytes32,
    made (fun hash => toHex ⟨0, hash⟩) TonCCMessage.destinationAddress
      (field List.Vector.toList buffer),
    field TonCCMessage.destinationChain string, fixed fun log => log.logEvent = ""]

/-- What the inner cell of a nullified message holds. -/
def nullifiedInner : List (Format CellParser NullifiedSuccessfullyMessage) :=
  [made hexEncode NullifiedSuccessfullyMessage.payload buffer,
    field NullifiedSuccessfullyMessage.destinationAddress buffer,
    field NullifiedSuccessfullyMessage.destinationChain string]

/-- The fields of each log, in their order. -/
def fields : (n : ParserName) → List (Format CellParser n.Log)
  | .callContract =>
    [field CallContractMessage.destinationChain string,
      field CallContractMessage.destinationAddress string,
      made hexEncode CallContractMessage.payload buffer,
      field CallContractMessage.sourceAddress address,
      field CallContractMessage.payloadHash bytes32]
  | .messageExecuted =>
    [skipped (opCode opNullifiedSuccessfully),
      field NullifiedSuccessfullyMessage.messageId string,
      field NullifiedSuccessfullyMessage.sourceChain string,
      field NullifiedSuccessfullyMessage.sourceAddress string,
      inCell (inSequence nullifiedInner)]
  | .messageApproved =>
    [field TonCCMessage.messageId string, field TonCCMessage.sourceChain string,
      field TonCCMessage.sourceAddress string, inCell (inSequence approvedInner)]
  | .nativeGasPaid =>
    [field NativeGasPaidMessage.sender address, field NativeGasPaidMessage.payloadHash bytes32,
      made (fun value : Bytes32 => bytesToNat value.toList) NativeGasPaidMessage.msgValue bytes32,
      field NativeGasPaidMessage.refundAddress (inCell address),
      field NativeGasPaidMessage.destinationChain string,
      field NativeGasPaidMessage.destinationAddress string]
  | .nativeGasAdded =>
    [field NativeGasAddedMessage.txHash bytes32, field NativeGasAddedMessage.refundAddress address,
      made (fun value : Bytes32 => bytesToNat value.toList) NativeGasAddedMessage.msgValue bytes32]
  | .jettonGasAdded =>
    [field JettonGasAddedMessage.minter address, field JettonGasAddedMessage.sender address,
      field JettonGasAddedMessage.amount coins, field JettonGasAddedMessage.txHash bytes32,
      field JettonGasAddedMessage.refundAddress (inCell address)]
  | .jettonGasPaid =>
    [field JettonGasPaidMessage.minter address, field JettonGasPaidMessage.amount coins,
      field JettonGasPaidMessage.payloadHash bytes32,
      field JettonGasPaidMessage.refundAddress (inCell address),
      field JettonGasPaidMessage.destinationChain string,
      field JettonGasPaidMessage.destinationAddress string]
  | .nativeGasRefunded =>
    [field NativeGasRefundedMessage.txHash bytes32, field NativeGasRefundedMessage.address address,
      field NativeGasRefundedMessage.amount coins]
  | .itsTokenMetadataRegistered =>
    [skipped (opCode opTokenMetadataRegisteredLog),
      field LogTokenMetadataRegisteredMessage.address address,
      made (fun decimals => (decimals % 256).toNat) LogTokenMetadataRegisteredMessage.decimals int8]
  | .itsInterchainTokenDeploymentStarted =>
    [skipped (opCode opInterchainTokenDeploymentStartedLog),
      field LogITSInterchainTokenDeploymentStartedMessage.tokenId (uint 256),
      field LogITSInterchainTokenDeploymentStartedMessage.tokenName string,
      field LogITSInterchainTokenDeploymentStartedMessage.tokenSymbol string,
      field LogITSInterchainTokenDeploymentStartedMessage.decimals (uint 8),
      skipped reference,
      field LogITSInterchainTokenDeploymentStartedMessage.destinationChain string]
  | .itsInterchainTransfer =>
    [skipped (opCode opInterchainTransferLog),
      field LogITSInterchainTransferMessage.tokenId (uint 256),
      tried (fun sender => addressFromHex (toStrRadix16 sender))
        LogITSInterchainTransferMessage.senderAddress (inCell (uint 256)),
      field LogITSInterchainTransferMessage.destinationChain string,
      made (fun bytes => "0x" ++ hexEncode bytes)
        LogITSInterchainTransferMessage.destinationAddress buffer,
      field LogITSInterchainTransferMessage.jettonAmount (uint 256),
      made Cell.data LogITSInterchainTransferMessage.data reference]
  | .itsLinkTokenStarted =>
    [skipped (opCode opLinkTokenStartedLog),
      field LogITSLinkTokenStartedMessage.tokenId (uint 256),
      field LogITSLinkTokenStartedMessage.destinationChain string,
      tried (fun source => addressFromHex (toStrRadix16 source))
        LogITSLinkTokenStartedMessage.sourceTokenAddress (inCell (uint 256)),
      made (fun bytes => "0x" ++ hexEncode bytes)
        LogITSLinkTokenStartedMessage.destinationTokenAddress buffer,
      tried tokenManagerTypeOf LogITSLinkTokenStartedMessage.tokenManagerType (uint 8)]
  | .signersRotated =>
    [skipped (opCode opSignersRotatedLog), skipped reference,
      made (fun hash => "0x" ++ hexEncode (toBytesBe hash)) LogSignersRotatedMessage.signersHash
        (uint 256),
      field (fun log : LogSignersRotatedMessage => log.epoch.toNat) (uint 256)]

def decoder : (n : ParserName) → Decoder n.Log
  | .callContract => CallContractMessage.decode
  | .messageExecuted => NullifiedSuccessfullyMessage.decode
  | .messageApproved => TonCCMessage.decode
  | .nativeGasPaid => NativeGasPaidMessage.decode
  | .nativeGasAdded => NativeGasAddedMessage.decode
  | .jettonGasAdded => JettonGasAddedMessage.decode
  | .jettonGasPaid => JettonGasPaidMessage.decode
  | .nativeGasRefunded => NativeGasRefundedMessage.decode
  | .itsTokenMetadataRegistered => LogTokenMetadataRegisteredMessage.decode
  | .itsInterchainTokenDeploymentStarted => LogITSInterchainTokenDeploymentStartedMessage.decode
  | .itsInterchainTransfer => LogITSInterchainTransferMessage.decode
  | .itsLinkTokenStarted => LogITSLinkTokenStartedMessage.decode
  | .signersRotated => LogSignersRotatedMessage.decode

/-- `n`'s log, as it has to be laid out. -/
def layout (n : ParserName) : Format CellParser n.Log := inSequence (fields n)

theorem callContract_exact : Exact CallContractMessage.decode (layout .callContract) := by
  refine exact_sequence (exact_field _ loadString_exact fun destinationChain => ?_)
  refine exact_field _ loadString_exact fun destinationAddress => ?_
  refine exact_made _ _ loadBuffer_exact fun payload => ?_
  refine exact_field _ (load_exact loadAddress_exact) fun sourceAddress => ?_
  refine exact_field _ (load_exact loadBytes32_exact) fun payloadHash => ?_
  refine exact_done _ fun log => ?_
  cases log
  simp [and_assoc, eq_comm]

/-- A reader of an address in a referenced cell, as the decoders write it. -/
theorem exact_addressIn {β : Type} {C : β → Prop} {f : TonAddress → Decoder β}
    {Fs : List (Format CellParser β)} (g : β → TonAddress)
    (hf : ∀ a, ExactFor (fun b => C b ∧ g b = a) (f a) Fs) :
    ExactFor C (load nextReference >>= fun c => load (parseCell c loadAddress) >>= f)
      (field g (inCell address) :: Fs) := by
  simp only [load_parseCell]
  exact exact_assoc (exact_field g (inCell_exact (load_exact loadAddress_exact)) hf)

theorem nativeGasPaid_exact : Exact NativeGasPaidMessage.decode (layout .nativeGasPaid) := by
  refine exact_sequence (exact_field _ (load_exact loadAddress_exact) fun sender => ?_)
  refine exact_field _ (load_exact loadBytes32_exact) fun payloadHash => ?_
  refine exact_made _ _ (load_exact loadBytes32_exact) fun msgValue => ?_
  refine exact_addressIn _ fun refundAddress => ?_
  refine exact_field _ loadString_exact fun destinationChain => ?_
  refine exact_field _ loadString_exact fun destinationAddress => ?_
  refine exact_done _ fun log => ?_
  cases log
  simp [and_assoc, eq_comm]

theorem nativeGasAdded_exact : Exact NativeGasAddedMessage.decode (layout .nativeGasAdded) := by
  refine exact_sequence (exact_field _ (load_exact loadBytes32_exact) fun txHash => ?_)
  refine exact_field _ (load_exact loadAddress_exact) fun refundAddress => ?_
  refine exact_made _ _ (load_exact loadBytes32_exact) fun msgValue => ?_
  refine exact_done _ fun log => ?_
  cases log
  simp [and_assoc, eq_comm]

theorem jettonGasAdded_exact : Exact JettonGasAddedMessage.decode (layout .jettonGasAdded) := by
  refine exact_sequence (exact_field _ (load_exact loadAddress_exact) fun minter => ?_)
  refine exact_field _ (load_exact loadAddress_exact) fun sender => ?_
  refine exact_field _ (load_exact loadCoins_exact) fun amount => ?_
  refine exact_field _ (load_exact loadBytes32_exact) fun txHash => ?_
  refine exact_addressIn _ fun refundAddress => ?_
  refine exact_done _ fun log => ?_
  cases log
  simp [and_assoc, and_left_comm, eq_comm]

theorem jettonGasPaid_exact : Exact JettonGasPaidMessage.decode (layout .jettonGasPaid) := by
  refine exact_sequence (exact_field _ (load_exact loadAddress_exact) fun minter => ?_)
  refine exact_field _ (load_exact loadCoins_exact) fun amount => ?_
  refine exact_field _ (load_exact loadBytes32_exact) fun payloadHash => ?_
  refine exact_addressIn _ fun refundAddress => ?_
  refine exact_field _ loadString_exact fun destinationChain => ?_
  refine exact_field _ loadString_exact fun destinationAddress => ?_
  refine exact_done _ fun log => ?_
  cases log
  simp [and_assoc, and_left_comm, eq_comm]

theorem nativeGasRefunded_exact :
    Exact NativeGasRefundedMessage.decode (layout .nativeGasRefunded) := by
  refine exact_sequence (exact_field _ (load_exact loadBytes32_exact) fun txHash => ?_)
  refine exact_field _ (load_exact loadAddress_exact) fun address => ?_
  refine exact_field _ (load_exact loadCoins_exact) fun amount => ?_
  refine exact_done _ fun log => ?_
  cases log
  simp [and_assoc, eq_comm]

theorem itsTokenMetadataRegistered_exact :
    Exact LogTokenMetadataRegisteredMessage.decode (layout .itsTokenMetadataRegistered) := by
  refine exact_sequence (exact_skip (checkOpCode_exact _) fun _ => ?_)
  refine exact_field _ (load_exact loadAddress_exact) fun address => ?_
  refine exact_made _ _ (load_exact loadInt_exact) fun decimals => ?_
  refine exact_done _ fun log => ?_
  cases log
  simp [eq_comm]

theorem itsInterchainTokenDeploymentStarted_exact :
    Exact LogITSInterchainTokenDeploymentStartedMessage.decode
      (layout .itsInterchainTokenDeploymentStarted) := by
  refine exact_sequence (exact_skip (checkOpCode_exact _) fun _ => ?_)
  refine exact_field _ (load_exact (loadUint_exact 256)) fun tokenId => ?_
  refine exact_field _ loadString_exact fun tokenName => ?_
  refine exact_field _ loadString_exact fun tokenSymbol => ?_
  refine exact_field _ (load_exact (loadUint_exact 8)) fun decimals => ?_
  refine exact_skip (load_exact nextReference_exact) fun _ => ?_
  refine exact_field _ loadString_exact fun destinationChain => ?_
  refine exact_done _ fun log => ?_
  cases log
  simp [and_assoc, and_comm, and_left_comm, eq_comm]

/-- A reader of a number in a referenced cell whose digits are an address. -/
theorem exact_digitsIn {β : Type} {C : β → Prop} {f : TonAddress → Decoder β}
    {Fs : List (Format CellParser β)} (g : β → TonAddress)
    (hf : ∀ a, ExactFor (fun b => C b ∧ g b = a) (f a) Fs) :
    ExactFor C (load nextReference >>= fun c => load (parseCell c (loadUint 256)) >>= fun x =>
        (liftM (addressFromHex (toStrRadix16 x)) : Decoder TonAddress) >>= f)
      (tried (fun x => addressFromHex (toStrRadix16 x)) g (inCell (uint 256)) :: Fs) := by
  simp only [load_parseCell]
  exact exact_assoc (exact_tried _ g (inCell_exact (load_exact (loadUint_exact 256))) hf)

theorem itsInterchainTransfer_exact :
    Exact LogITSInterchainTransferMessage.decode (layout .itsInterchainTransfer) := by
  refine exact_sequence (exact_skip (checkOpCode_exact _) fun _ => ?_)
  refine exact_field _ (load_exact (loadUint_exact 256)) fun tokenId => ?_
  refine exact_digitsIn _ fun senderAddress => ?_
  refine exact_field _ loadString_exact fun destinationChain => ?_
  refine exact_made _ _ loadBuffer_exact fun destinationAddress => ?_
  refine exact_field _ (load_exact (loadUint_exact 256)) fun jettonAmount => ?_
  refine exact_made _ _ (load_exact nextReference_exact) fun dataCell => ?_
  refine exact_done _ fun log => ?_
  cases log
  simp [and_assoc, eq_comm]

theorem itsLinkTokenStarted_exact :
    Exact LogITSLinkTokenStartedMessage.decode (layout .itsLinkTokenStarted) := by
  refine exact_sequence (exact_skip (checkOpCode_exact _) fun _ => ?_)
  refine exact_field _ (load_exact (loadUint_exact 256)) fun tokenId => ?_
  refine exact_field _ loadString_exact fun destinationChain => ?_
  refine exact_digitsIn _ fun sourceTokenAddress => ?_
  refine exact_made _ _ loadBuffer_exact fun destinationTokenAddress => ?_
  refine exact_tried _ _ (load_exact (loadUint_exact 8)) fun tokenManagerType => ?_
  refine exact_done _ fun log => ?_
  cases log
  simp [and_assoc, eq_comm]

theorem signersRotated_exact :
    Exact LogSignersRotatedMessage.decode (layout .signersRotated) := by
  refine exact_sequence (exact_skip (checkOpCode_exact _) fun _ => ?_)
  refine exact_skip (load_exact nextReference_exact) fun _ => ?_
  refine exact_made _ _ (load_exact (loadUint_exact 256)) fun signersHash => ?_
  refine exact_congr (exact_bind (load_exact (loadUint_exact 256)) fun epoch =>
    exact_ite (exact_pure _) (exact_throw _)) fun log m => ⟨?_, ?_⟩
  · rintro ⟨epoch, u, v, hu, hv, rfl⟩
    split at hv
    · rename_i hfits
      obtain ⟨rfl, rfl⟩ := hv
      refine ⟨⟨trivial, rfl⟩, u, 1, ?_, rfl, rfl⟩
      show uint 256 (UInt64.ofNat epoch).toNat u
      rwa [UInt64.toNat_ofNat_of_lt' hfits]
    · exact hv.elim
  · rintro ⟨⟨-, hhash⟩, u, _, hu, rfl, rfl⟩
    refine ⟨log.epoch.toNat, u, 1, hu, ?_, rfl⟩
    rw [if_pos log.epoch.toNat_lt]
    refine ⟨?_, rfl⟩
    cases log
    simp_all

/-- The rest of a decoder, run on a referenced cell. -/
theorem exact_innerCell {β : Type} {C : β → Prop} {k : Cell → Decoder β} (x : Decoder β)
    {Fs : List (Format CellParser β)} (hx : ExactFor C x Fs)
    (hk : ∀ c, k c = readAt x c.parser) :
    ExactFor C (load nextReference >>= k) [inCell (inSequence Fs)] := by
  rw [funext hk]
  refine exact_congr (inCell_exact hx) fun b m => ⟨?_, ?_⟩
  · rintro ⟨c, piece, rest, hc, ⟨hC, hpiece⟩, rfl⟩
    exact ⟨hC, _, 1, ⟨c, piece, rest, hc, hpiece, rfl⟩, rfl, (mul_one _).symm⟩
  · rintro ⟨hC, _, _, ⟨c, piece, rest, hc, hpiece, rfl⟩, rfl, rfl⟩
    exact ⟨c, piece, rest, hc, ⟨hC, hpiece⟩, mul_one _⟩

/-- `TonHash::try_from` -/
def hashOf (bytes : List UInt8) : Except BocError Bytes32 :=
  if h : bytes.length = 32 then .ok ⟨bytes, h⟩
  else .error (.bocParsingError (.text "Invalid hash length"))

theorem hashOf_eq_ok {bytes : List UInt8} {hash : Bytes32} :
    hashOf bytes = .ok hash ↔ hash.toList = bytes := by
  rw [hashOf]
  split
  · rename_i h
    constructor
    · intro heq
      cases heq
      rfl
    · intro heq
      exact congrArg Except.ok (List.Vector.eq _ _ heq.symm)
  · rename_i h
    constructor
    · intro heq
      cases heq
    · rintro rfl
      exact absurd hash.toList_length h

theorem loadHash_exact :
    Exact (load nextReference >>= fun c => (liftM (hashOf (cellToBuffer c)) : Decoder Bytes32))
      (field List.Vector.toList buffer) := by
  refine exact_congr (exact_bind (load_exact nextReference_exact) fun c =>
    exact_lift (hashOf (cellToBuffer c))) fun hash m => ⟨?_, ?_⟩
  · rintro ⟨c, _, _, rfl, ⟨hhash, rfl⟩, rfl⟩
    exact ⟨c, (hashOf_eq_ok.mp hhash).symm, mul_one _⟩
  · rintro ⟨c, hhash, rfl⟩
    exact ⟨c, _, 1, rfl, ⟨hashOf_eq_ok.mpr hhash.symm, rfl⟩, (mul_one _).symm⟩

theorem loadBuffer_bind {β : Type} (f : List UInt8 → Decoder β) :
    (loadBuffer >>= f) = load nextReference >>= fun c => f (cellToBuffer c) := by
  rw [loadBuffer, bind_assoc]
  rfl

theorem loadString_bind {β : Type} (f : String → Decoder β) : (loadString >>= f) =
    load nextReference >>= fun c => (liftM (cellToString c) : Decoder String) >>= f := by
  rw [loadString, bind_assoc]

/-- What `TonCCMessage.decode` does in the inner cell. -/
def readApproved (messageId sourceChain sourceAddress : String) : Decoder TonCCMessage := do
  let payloadHash ← load loadBytes32
  let destinationAddress ← load nextReference
  let hash ← hashOf (cellToBuffer destinationAddress)
  let destinationChain ← loadString
  return ⟨messageId, toHex ⟨0, hash⟩, destinationChain, sourceAddress, sourceChain, "",
    payloadHash⟩

theorem messageApproved_exact : Exact TonCCMessage.decode (layout .messageApproved) := by
  refine exact_sequence (exact_field _ loadString_exact fun messageId => ?_)
  refine exact_field _ loadString_exact fun sourceChain => ?_
  refine exact_field _ loadString_exact fun sourceAddress => ?_
  refine exact_innerCell (readApproved messageId sourceChain sourceAddress) ?_ fun c => ?_
  · refine exact_field _ (load_exact loadBytes32_exact) fun payloadHash => ?_
    refine exact_assoc (exact_made _ _ loadHash_exact fun hash => ?_)
    refine exact_field _ loadString_exact fun destinationChain => ?_
    refine exact_fixed (exact_done _ fun log => ?_)
    cases log
    simp [and_assoc, and_comm, and_left_comm, eq_comm]
  · simp only [readApproved, loadString_bind]
    refine readAt_bind (x := load loadBytes32) fun payloadHash inner => ?_
    refine readAt_bind (x := load nextReference) fun destinationAddress inner => ?_
    dsimp only
    by_cases h : (cellToBuffer destinationAddress).length = 32
    · rw [dif_pos h]
      refine readAt_computed (hashOf_eq_ok.mpr (List.Vector.toList_mk _ h)) ?_
      refine readAt_bind (x := load nextReference) fun destinationChain inner => ?_
      exact readAt_lift fun destinationChain => readAt_pure _
    · rw [dif_neg h, hashOf, dif_neg h]
      rfl

/-- What `NullifiedSuccessfullyMessage.decode` does in the inner cell. -/
def readNullified (messageId sourceChain sourceAddress : String) :
    Decoder NullifiedSuccessfullyMessage := do
  let payload ← loadBuffer
  let destinationAddress ← loadBuffer
  let destinationChain ← loadString
  return ⟨messageId, sourceChain, sourceAddress, destinationChain, destinationAddress,
    hexEncode payload⟩

/-- The op code, compared as text. -/
theorem checkNullified_exact (e : List UInt8 → BocError) : Exact (load (loadBytes 4) >>= fun op =>
      if hexEncode op ≠ format08X opNullifiedSuccessfully then throw (e op) else pure ())
    (opCode opNullifiedSuccessfully) := by
  have htext : hexEncode [0, 0, 0, 5] = format08X opNullifiedSuccessfully := by decide +kernel
  have hbits : bytesBits [0, 0, 0, 5] = natToBits 32 opNullifiedSuccessfully.toNat := by decide
  refine exact_congr (exact_bind (load_exact (loadBytes_exact 4)) fun op =>
    exact_ite (exact_throw _) (exact_pure ())) fun u m => ⟨?_, ?_⟩
  · rintro ⟨op, _, v, ⟨-, rfl⟩, hv, rfl⟩
    split at hv
    · exact hv.elim
    · rename_i hop
      obtain ⟨-, rfl⟩ := hv
      rw [not_not, ← htext] at hop
      have hsame := congrArg hexDecode hop
      rw [hexDecode_hexEncode, hexDecode_hexEncode] at hsame
      rw [opCode, mul_one, Option.some.inj hsame, hbits]
  · rintro rfl
    refine ⟨[0, 0, 0, 5], _, 1, ⟨rfl, rfl⟩, ?_, ?_⟩
    · rw [if_neg (not_not.mpr htext)]
      exact ⟨rfl, rfl⟩
    · rw [hbits, mul_one]

/-- What follows the op code of a nullified message. -/
def readExecuted : Decoder NullifiedSuccessfullyMessage := do
  let messageId ← loadString
  let sourceChain ← loadString
  let sourceAddress ← loadString
  let innerCell ← load nextReference
  readAt (readNullified messageId sourceChain sourceAddress) innerCell.parser

theorem decode_executed : NullifiedSuccessfullyMessage.decode = (load (loadBytes 4) >>= fun op =>
    (if hexEncode op ≠ format08X opNullifiedSuccessfully then
      throw (.invalidOpCode ("Expected " ++ toString opNullifiedSuccessfully.toNat ++
        ", got \"" ++ hexEncode op ++ "\"")) else pure ()) >>= fun _ => readExecuted) := by
  rw [NullifiedSuccessfullyMessage.decode]
  refine congrArg (load (loadBytes 4) >>= ·) (funext fun op => ?_)
  refine Eq.trans ?_ (check_bind _ _ _)
  suffices hrest : readExecuted = _ by rw [hrest]
  refine congrArg (loadString >>= ·) (funext fun messageId => ?_)
  refine congrArg (loadString >>= ·) (funext fun sourceChain => ?_)
  refine congrArg (loadString >>= ·) (funext fun sourceAddress => ?_)
  refine congrArg (load nextReference >>= ·) (funext fun innerCell => ?_)
  simp only [readNullified, loadBuffer_bind, loadString_bind]
  refine (readAt_bind (x := load nextReference) fun payload inner => ?_).symm
  refine readAt_bind (x := load nextReference) fun destinationAddress inner => ?_
  refine readAt_bind (x := load nextReference) fun destinationChain inner => ?_
  exact readAt_lift fun destinationChain => readAt_pure _

theorem messageExecuted_exact :
    Exact NullifiedSuccessfullyMessage.decode (layout .messageExecuted) := by
  rw [decode_executed]
  refine exact_sequence (exact_assoc (exact_skip (checkNullified_exact _) fun _ => ?_))
  refine exact_field _ loadString_exact fun messageId => ?_
  refine exact_field _ loadString_exact fun sourceChain => ?_
  refine exact_field _ loadString_exact fun sourceAddress => ?_
  refine exact_innerCell (readNullified messageId sourceChain sourceAddress) ?_ fun _ => rfl
  refine exact_made _ _ loadBuffer_exact fun payload => ?_
  refine exact_field _ loadBuffer_exact fun destinationAddress => ?_
  refine exact_field _ loadString_exact fun destinationChain => ?_
  refine exact_done _ fun log => ?_
  cases log
  simp [and_assoc, and_comm, and_left_comm, eq_comm]

end Fields

end LogFormats
