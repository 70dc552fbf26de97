import TonRelayer.MessageDecoders

/-! Addresses that travel as 256-bit numbers.
The transfer and the link-token log hold a hash as a number; the decoders print it in radix 16
and read the digits as an address, which takes 64 of them. -/
namespace ItsAddresses

open ExceptRules Cells ByteEncodings RelayerExecute MessageDecoders

section Digits

/-- The number in `n` bytes, big endian. -/
def bytesBe : ℕ → ℕ → List UInt8
  | 0, _ => []
  | n + 1, h => bytesBe n (h / 256) ++ [UInt8.ofNat h]

theorem bytesBe_length (n h : ℕ) : (bytesBe n h).length = n := by
  induction n generalizing h with
  | zero => rfl
  | succ n ih => simp [bytesBe, ih]

/-- The address `0:h`. -/
def addressOf (h : ℕ) : TonAddress := ⟨0, ⟨bytesBe 32 h, bytesBe_length 32 h⟩⟩

theorem hexDecodeChars_length {cs : List Char} {bytes : List UInt8}
    (h : hexDecodeChars cs = some bytes) : cs.length = 2 * bytes.length := by
  induction cs using hexDecodeChars.induct generalizing bytes with
  | case1 =>
    cases h
    rfl
  | case2 => cases h
  | case3 a b rest ih =>
    simp only [hexDecodeChars, Option.bind_eq_bind, Option.bind_eq_some_iff, Option.pure_def,
      Option.some.injEq] at h
    obtain ⟨x, -, y, -, bytes, hrest, rfl⟩ := h
    have hlength := ih hrest
    simp only [List.length_cons]
    omega

theorem hexDecodeChars_concat {cs : List Char} {bytes : List UInt8} {x y : ℕ}
    (h : hexDecodeChars cs = some bytes) (hx : x < 16) (hy : y < 16) :
    hexDecodeChars (cs ++ [Nat.digitChar x, Nat.digitChar y]) =
      some (bytes ++ [UInt8.ofNat (16 * x + y)]) := by
  induction cs using hexDecodeChars.induct generalizing bytes with
  | case1 =>
    cases h
    simp [hexDecodeChars, hexValue_digitChar hx, hexValue_digitChar hy]
  | case2 => cases h
  | case3 a b rest ih =>
    simp only [hexDecodeChars, Option.bind_eq_bind, Option.bind_eq_some_iff, Option.pure_def,
      Option.some.injEq] at h
    obtain ⟨u, hu, v, hv, bytes, hrest, rfl⟩ := h
    simp [hexDecodeChars, hu, hv, ih hrest]

/-- The two last digits of a number are those of its last byte. -/
theorem toDigits_byte {h : ℕ} (hh : 16 ≤ h / 16) : Nat.toDigits 16 h =
    Nat.toDigits 16 (h / 256) ++ [Nat.digitChar (h / 16 % 16), Nat.digitChar (h % 16)] := by
  have hdiv : h / 16 / 16 = h / 256 := by omega
  rw [Nat.toDigits_of_base_le (by decide) (by omega), Nat.toDigits_of_base_le (by decide) hh,
    hdiv, List.append_assoc]
  rfl

/-- A number without leading zero digits is read back from its hex digits. -/
theorem hexDecode_toDigits {n h : ℕ} (hlow : 16 ^ (2 * n + 1) ≤ h) (hhigh : h < 16 ^ (2 * n + 2)) :
    hexDecodeChars (Nat.toDigits 16 h) = some (bytesBe (n + 1) h) := by
  induction n generalizing h with
  | zero =>
    have hdigits : Nat.toDigits 16 h = [] ++ [Nat.digitChar (h / 16), Nat.digitChar (h % 16)] := by
      rw [Nat.toDigits_of_base_le (by decide) (by omega),
        Nat.toDigits_of_lt_base (by omega : h / 16 < 16)]
      rfl
    have hbyte : 16 * (h / 16) + h % 16 = h := by omega
    rw [hdigits, hexDecodeChars_concat rfl (by omega) (by omega), hbyte]
    rfl
  | succ n ih =>
    have hlow' : 16 ^ (2 * n + 1) ≤ h / 256 := by
      rw [show 2 * (n + 1) + 1 = 2 * n + 1 + 2 by ring, pow_add] at hlow
      omega
    have hhigh' : h / 256 < 16 ^ (2 * n + 2) := by
      rw [show 2 * (n + 1) + 2 = 2 * n + 2 + 2 by ring, pow_add] at hhigh
      omega
    have hpos : 0 < 16 ^ (2 * n + 1) := by positivity
    have hbyte : UInt8.ofNat (16 * (h / 16 % 16) + h % 16) = UInt8.ofNat h := by
      apply UInt8.toNat_inj.mp
      simp only [UInt8.toNat_ofNat']
      omega
    rw [toDigits_byte (by omega), hexDecodeChars_concat (ih hlow' hhigh') (by omega) (by omega),
      hbyte]
    rfl

/-- The printed number is read as an address exactly when it has all of its 64 digits. -/
theorem addressFromHex_radix {h : ℕ} (hh : h < 2 ^ 256) :
    addressFromHex (toStrRadix16 h) =
      if 16 ^ 63 ≤ h then .ok (addressOf h) else .error (.bocParsingError .badAddress) := by
  rw [addressFromHex, hexDecode, toStrRadix16, String.toList_ofList]
  by_cases hlow : 16 ^ 63 ≤ h
  · have hdecode : hexDecodeChars (Nat.toDigits 16 h) = some (bytesBe 32 h) :=
      hexDecode_toDigits (n := 31) hlow (by norm_num at hh ⊢; exact hh)
    rw [if_pos hlow, hdecode]
    simp only [bytesBe_length, dif_pos]
    rfl
  · rw [if_neg hlow]
    cases hdecode : hexDecodeChars (Nat.toDigits 16 h) with
    | none => rfl
    | some bytes =>
      have hlength := hexDecodeChars_length hdecode
      have hdigits : (Nat.toDigits 16 h).length ≤ 63 :=
        (Nat.length_toDigits_le_iff (by decide) (by decide)).mpr (by omega)
      have hshort : bytes.length ≠ 32 := by omega
      simp only [hshort, dif_neg, not_false_iff]

end Digits

section Logs

variable {c : Cell} {h : ℕ}

/-- A cell holds the number in its first 256 bits. -/
def Holds (c : Cell) (h : ℕ) : Prop := ∃ rest, c.bits = natToBits 256 h ++ rest

theorem load_held (hh : h < 2 ^ 256) (hc : Holds c h) (p : CellParser) :
    load (parseCell c (loadUint 256)) p = .ok (h, p) := by
  obtain ⟨rest, hbits⟩ := hc
  have htake : c.parser.bits.take 256 = natToBits 256 h := by
    rw [Cell.parser, hbits, List.take_append_of_le_length (by simp),
      List.take_of_length_le (by simp)]
  have hlength : 256 ≤ c.parser.bits.length := by
    rw [Cell.parser, hbits, List.length_append, natToBits_length]
    omega
  have hread := loadUint_ok hlength
  rw [htake, bitsToNat_natToBits hh] at hread
  exact load_parseCell hread p

/-- A well-formed log of an interchain transfer with this sender. -/
structure TransferLog (c : Cell) (h : ℕ) : Prop where
  bits : ∃ body, c.bits = natToBits 32 opInterchainTransferLog.toNat ++ body ∧ 512 ≤ body.length
  references : ∃ sender chain address data, c.references = [sender, chain, address, data] ∧
    Holds sender h ∧ ∃ text, cellToString chain = .ok text

/-- A well-formed log of a started token link with this source token. -/
structure LinkLog (c : Cell) (h : ℕ) : Prop where
  bits : ∃ tokenId kind rest, tokenId.length = 256 ∧ kind ≤ 4 ∧
    c.bits = natToBits 32 opLinkTokenStartedLog.toNat ++ (tokenId ++ (natToBits 8 kind ++ rest))
  references : ∃ chain source address rest, c.references = chain :: source :: address :: rest ∧
    Holds source h ∧ ∃ text, cellToString chain = .ok text

/-- Only the address can fail; the data are those of the fourth reference alone. -/
theorem transfer_decode_data (hh : h < 2 ^ 256) (hc : TransferLog c h) :
    ∃ f : TonAddress → LogITSInterchainTransferMessage × CellParser,
      (∀ a, (f a).1.senderAddress = a) ∧
      (∀ a, c.references[3]?.map Cell.data = some (f a).1.data) ∧
      LogITSInterchainTransferMessage.decode c.parser =
        addressFromHex (toStrRadix16 h) >>= fun a => .ok (f a) := by
  obtain ⟨body, hbits, hbody⟩ := hc.bits
  obtain ⟨sender, chain, address, data, hrefs, hsender, text, htext⟩ := hc.references
  have hamount : 256 ≤ (body.drop 256).length := by
    rw [List.length_drop]
    omega
  refine ⟨fun a => (⟨bitsToNat (body.take 256), a, text,
    "0x" ++ hexEncode (cellToBuffer address), bitsToNat ((body.drop 256).take 256), data.data⟩,
    ⟨(body.drop 256).drop 256, []⟩), fun a => rfl, fun a => by rw [hrefs]; rfl, ?_⟩
  rw [LogITSInterchainTransferMessage.decode, Cell.parser, hbits, hrefs]
  simp only [decoder_bind, checkOpCode_ok, ok_bind, load_nextReference, load_held hh hsender,
    load_loadUint (by omega : 256 ≤ body.length)]
  cases addressFromHex (toStrRadix16 h) with
  | error e => rfl
  | ok a =>
    have hlift (p : CellParser) :
        (liftM (Except.ok a : Except BocError TonAddress) : Decoder TonAddress) p = .ok (a, p) :=
      rfl
    simp only [hlift, ok_bind, loadString_ok htext, loadBuffer_ok, load_loadUint hamount,
      load_nextReference]
    rfl

theorem transfer_decode (hh : h < 2 ^ 256) (hc : TransferLog c h) :
    ∃ f : TonAddress → LogITSInterchainTransferMessage × CellParser,
      (∀ a, (f a).1.senderAddress = a) ∧
      LogITSInterchainTransferMessage.decode c.parser =
        addressFromHex (toStrRadix16 h) >>= fun a => .ok (f a) := by
  obtain ⟨f, hsender, -, hdecode⟩ := transfer_decode_data hh hc
  exact ⟨f, hsender, hdecode⟩

theorem tokenManagerTypeOf_ok {kind : ℕ} (h : kind ≤ 4) :
    ∃ tokenManagerType, tokenManagerTypeOf kind = .ok tokenManagerType := by
  interval_cases kind <;> exact ⟨_, rfl⟩

theorem link_decode (hh : h < 2 ^ 256) (hc : LinkLog c h) :
    ∃ f : TonAddress → LogITSLinkTokenStartedMessage × CellParser,
      (∀ a, (f a).1.sourceTokenAddress = a) ∧
      LogITSLinkTokenStartedMessage.decode c.parser =
        addressFromHex (toStrRadix16 h) >>= fun a => .ok (f a) := by
  obtain ⟨tokenId, kind, rest, htoken, hkind, hbits⟩ := hc.bits
  obtain ⟨chain, source, address, refs, hrefs, hsource, text, htext⟩ := hc.references
  obtain ⟨tokenManagerType, htype⟩ := tokenManagerTypeOf_ok hkind
  have htake : (natToBits 8 kind ++ rest).take 8 = natToBits 8 kind := by
    rw [List.take_append_of_le_length (by simp), List.take_of_length_le (by simp)]
  have hdrop : (tokenId ++ (natToBits 8 kind ++ rest)).drop 256 = natToBits 8 kind ++ rest := by
    rw [← htoken, List.drop_left]
  refine ⟨fun a => (⟨bitsToNat ((tokenId ++ (natToBits 8 kind ++ rest)).take 256), text, a,
    "0x" ++ hexEncode (cellToBuffer address), tokenManagerType⟩,
    ⟨(natToBits 8 kind ++ rest).drop 8, refs⟩), fun a => rfl, ?_⟩
  rw [LogITSLinkTokenStartedMessage.decode, Cell.parser, hbits, hrefs]
  simp only [decoder_bind, checkOpCode_ok, ok_bind, load_nextReference, load_held hh hsource,
    loadString_ok htext,
    load_loadUint (by simp [htoken] : 256 ≤ (tokenId ++ (natToBits 8 kind ++ rest)).length), hdrop]
  cases addressFromHex (toStrRadix16 h) with
  | error e => rfl
  | ok a =>
    have hlift {α : Type} (x : α) (p : CellParser) :
        (liftM (Except.ok x : Except BocError α) : Decoder α) p = .ok (x, p) := rfl
    simp only [hlift, ok_bind, loadBuffer_ok,
      load_loadUint (by simp : 8 ≤ (natToBits 8 kind ++ rest).length), htake,
      bitsToNat_natToBits (by omega : kind < 2 ^ 8), htype]
    rfl

/-- A decoder that reads an address from the number succeeds, with that address, exactly when
the number has no leading zero digit. -/
theorem fromBocB64_address_iff {α : Type} {boc : String → Except CellError Cell}
    {decode : Decoder α} {read : α → TonAddress} {text : String} (hh : h < 2 ^ 256)
    (hboc : boc text = .ok c)
    (hdecode : ∃ f : TonAddress → α × CellParser, (∀ a, read (f a).1 = a) ∧
      decode c.parser = addressFromHex (toStrRadix16 h) >>= fun a => .ok (f a)) :
    (∃ m, fromBocB64 boc decode text = .ok m ∧ read m = addressOf h) ↔ 16 ^ 63 ≤ h := by
  obtain ⟨f, hread, hrun⟩ := hdecode
  rw [addressFromHex_radix hh] at hrun
  rw [fromBocB64_eq hboc, hrun]
  by_cases hlow : 16 ^ 63 ≤ h
  · rw [if_pos hlow]
    exact ⟨fun _ => hlow, fun _ => ⟨_, rfl, hread _⟩⟩
  · rw [if_neg hlow]
    constructor
    · rintro ⟨m, hm, -⟩
      cases hm
    · intro h
      exact absurd h hlow

/-- The address of a transfer's sender and of a linked token is decoded exactly for the hashes
whose first hex digit is not zero. -/
theorem its_addresses_decode_iff (boc : String → Except CellError Cell) {text : String}
    (hh : h < 2 ^ 256) (hboc : boc text = .ok c) :
    (TransferLog c h → ((∃ m, fromBocB64 boc LogITSInterchainTransferMessage.decode text = .ok m ∧
      m.senderAddress = addressOf h) ↔ 16 ^ 63 ≤ h)) ∧
    (LinkLog c h → ((∃ m, fromBocB64 boc LogITSLinkTokenStartedMessage.decode text = .ok m ∧
      m.sourceTokenAddress = addressOf h) ↔ 16 ^ 63 ≤ h)) := by
  constructor
  · intro hc
    exact fromBocB64_address_iff hh hboc (transfer_decode hh hc)
  · intro hc
    exact fromBocB64_address_iff hh hboc (link_decode hh hc)

end Logs

section Samples

def numberCell (h : ℕ) : Cell := .mk ⟨natToBits 256 h, by simp⟩ ⟨0, by decide⟩ Fin.elim0

def bytesCell (bytes : List UInt8) (h : bytes.length ≤ 127) : Cell :=
  .mk ⟨bytesBits bytes, by simp; omega⟩ ⟨0, by decide⟩ Fin.elim0

def chainCell : Cell := bytesCell (asBytes "avalanche") (by decide)

def transferCell (h : ℕ) : Cell :=
  .mk ⟨natToBits 32 opInterchainTransferLog.toNat ++ (natToBits 256 7 ++ natToBits 256 5), by simp⟩
    ⟨4, by decide⟩ [numberCell h, chainCell, bytesCell [0xd7] (by decide), emptyCell].get

def linkCell (h : ℕ) : Cell :=
  .mk ⟨natToBits 32 opLinkTokenStartedLog.toNat ++ (natToBits 256 7 ++ (natToBits 8 4 ++ [])),
    by simp⟩ ⟨3, by decide⟩ [chainCell, numberCell h, bytesCell [0xd7] (by decide)].get

theorem chainCell_text : cellToString chainCell = .ok "avalanche" := by decide +kernel

theorem numberCell_holds (h : ℕ) : Holds (numberCell h) h := ⟨[], (List.append_nil _).symm⟩

theorem transferCell_log (h : ℕ) : TransferLog (transferCell h) h where
  bits := ⟨_, rfl, by simp⟩
  references := ⟨_, _, _, _, rfl, numberCell_holds h, "avalanche", chainCell_text⟩

theorem linkCell_log (h : ℕ) : LinkLog (linkCell h) h where
  bits := ⟨natToBits 256 7, 4, [], by simp, le_rfl, rfl⟩
  references := ⟨_, _, _, [], rfl, numberCell_holds h, "avalanche", chainCell_text⟩

/-- The logs for the hashes 1000...0 and 0000...1. -/
def transferText : String :=
  "te6cckEBBQEAfAAEiAAAARAAAAAAAAAAAAAAAAAAAAAAAAAAAAAAAAAAAAAAAAAABwAAAAAAAAAAAAAAAAAAAAAAAAAA" ++
  "AAAAAAAAAAAAAAAFAQIDBABAEAAAAAAAAAAAAAAAAAAAAAAAAAAAAAAAAAAAAAAAAAAAEmF2YWxhbmNoZQAC1wAAmbW0" ++
  "sA=="

def linkText : String :=
  "te6cckEBBAEAWgADSgAAAQUAAAAAAAAAAAAAAAAAAAAAAAAAAAAAAAAAAAAAAAAABwQBAgMAEmF2YWxhbmNoZQBAEAAA" ++
  "AAAAAAAAAAAAAAAAAAAAAAAAAAAAAAAAAAAAAAAAAtd3ykCa"

def paddedTransferText : String :=
  "te6cckEBBQEAfAAEiAAAARAAAAAAAAAAAAAAAAAAAAAAAAAAAAAAAAAAAAAAAAAABwAAAAAAAAAAAAAAAAAAAAAAAAAA" ++
  "AAAAAAAAAAAAAAAFAQIDBABAAAAAAAAAAAAAAAAAAAAAAAAAAAAAAAAAAAAAAAAAAAEAEmF2YWxhbmNoZQAC1wAAd88t" ++
  "KA=="

def paddedLinkText : String :=
  "te6cckEBBAEAWgADSgAAAQUAAAAAAAAAAAAAAAAAAAAAAAAAAAAAAAAAAAAAAAAABwQBAgMAEmF2YWxhbmNoZQBAAAAA" ++
  "AAAAAAAAAAAAAAAAAAAAAAAAAAAAAAAAAAAAAAEAAtcd77RQ"

def sampleBoc (text : String) : Except CellError Cell :=
  if text = transferText then .ok (transferCell (16 ^ 63))
  else if text = linkText then .ok (linkCell (16 ^ 63))
  else if text = paddedTransferText then .ok (transferCell 1)
  else if text = paddedLinkText then .ok (linkCell 1)
  else .error .badBoc

theorem its_addresses_decode_full_width :
    (∃ m, fromBocB64 sampleBoc LogITSInterchainTransferMessage.decode transferText = .ok m ∧
      m.senderAddress = addressOf (16 ^ 63)) ∧
    (∃ m, fromBocB64 sampleBoc LogITSLinkTokenStartedMessage.decode linkText = .ok m ∧
      m.sourceTokenAddress = addressOf (16 ^ 63)) := by
  constructor
  · have hiff := its_addresses_decode_iff sampleBoc (h := 16 ^ 63) (by norm_num)
      (show sampleBoc transferText = .ok (transferCell (16 ^ 63)) by rw [sampleBoc, if_pos rfl])
    exact (hiff.1 (transferCell_log _)).mpr le_rfl
  · have hiff := its_addresses_decode_iff sampleBoc (h := 16 ^ 63) (by norm_num)
      (show sampleBoc linkText = .ok (linkCell (16 ^ 63)) by
        rw [sampleBoc, if_neg (by decide), if_pos rfl])
    exact (hiff.2 (linkCell_log _)).mpr le_rfl

theorem leading_zero_address_rejected :
    TransferLog (transferCell 1) 1 ∧ sampleBoc paddedTransferText = .ok (transferCell 1) ∧
    (¬ ∃ m, fromBocB64 sampleBoc LogITSInterchainTransferMessage.decode paddedTransferText = .ok m ∧
      m.senderAddress = addressOf 1) ∧
    LinkLog (linkCell 1) 1 ∧ sampleBoc paddedLinkText = .ok (linkCell 1) ∧
    (¬ ∃ m, fromBocB64 sampleBoc LogITSLinkTokenStartedMessage.decode paddedLinkText = .ok m ∧
      m.sourceTokenAddress = addressOf 1) := by
  have hone : (1 : ℕ) < 2 ^ 256 := by norm_num
  have hshort : ¬ 16 ^ 63 ≤ 1 := by norm_num
  have htransfer : sampleBoc paddedTransferText = .ok (transferCell 1) := by
    rw [sampleBoc, if_neg (by decide +kernel), if_neg (by decide), if_pos rfl]
  have hlink : sampleBoc paddedLinkText = .ok (linkCell 1) := by
    rw [sampleBoc, if_neg (by decide), if_neg (by decide +kernel), if_neg (by decide), if_pos rfl]
  refine ⟨transferCell_log 1, htransfer, ?_, linkCell_log 1, hlink, ?_⟩
  · intro hm
    exact hshort ((fromBocB64_address_iff hone htransfer
      (transfer_decode hone (transferCell_log 1))).mp hm)
  · intro hm
    exact hshort ((fromBocB64_address_iff hone hlink (link_decode hone (linkCell_log 1))).mp hm)

end Samples

end ItsAddresses
