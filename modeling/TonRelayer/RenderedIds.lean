import Mathlib.Data.Nat.Digits.Lemmas
import TonRelayer.EventAuthenticity
import TonRelayer.ItsAddresses

/-! The 256-bit identifiers in the events: token ids and signer hashes.
Token ids are printed in radix 16, signer hashes as the bytes of the number; both forms drop
leading zeros. -/
namespace RenderedIds

open ExceptRules Cells ByteEncodings RelayerExecute MessageDecoders Types GasCalculator
open TransactionParsers EventAuthenticity ItsAddresses

def LowerHex (c : Char) : Prop := ('0' ≤ c ∧ c ≤ '9') ∨ ('a' ≤ c ∧ c ≤ 'f')

/-- The text is `0x` and 64 lowercase digits, and these decode to the 32 bytes of `v`. -/
def Renders (text : String) (v : ℕ) : Prop :=
  ∃ digits : String, text = "0x" ++ digits ∧ digits.length = 64 ∧
    (∀ c ∈ digits.toList, LowerHex c) ∧ hexDecode digits = some (bytesBe 32 v)

section Digits

variable {v : ℕ}

theorem digitChar_lower {d : ℕ} (h : d < 16) : LowerHex (Nat.digitChar d) := by
  rw [LowerHex]
  interval_cases d <;> decide

theorem toDigits_lower (n : ℕ) : ∀ c ∈ Nat.toDigits 16 n, LowerHex c := by
  induction n using Nat.strong_induction_on with
  | _ n ih =>
    intro c hc
    by_cases hn : n < 16
    · rw [Nat.toDigits_of_lt_base hn, List.mem_singleton] at hc
      rw [hc]
      exact digitChar_lower hn
    · rw [Nat.toDigits_of_base_le (by decide) (by omega), List.mem_append,
        List.mem_singleton] at hc
      rcases hc with hc | rfl
      · exact ih (n / 16) (by omega) c hc
      · exact digitChar_lower (by omega)

theorem hexEncode_lower (bytes : List UInt8) : ∀ c ∈ (hexEncode bytes).toList, LowerHex c := by
  intro c hc
  rw [hexEncode, String.toList_ofList, List.mem_flatMap] at hc
  obtain ⟨b, -, hc⟩ := hc
  have hb : b.toNat < 256 := b.toNat_lt
  rw [List.mem_cons, List.mem_singleton] at hc
  rcases hc with rfl | rfl
  · exact digitChar_lower (by omega)
  · exact digitChar_lower (by omega)

theorem renders_length {digits : String} (h : Renders ("0x" ++ digits) v) :
    digits.length = 64 := by
  obtain ⟨digits', heq, hlength, -⟩ := h
  have hlist := congrArg String.toList heq
  rw [String.toList_append, String.toList_append] at hlist
  rw [String.toList_injective (List.append_cancel_left hlist), hlength]

/-- A printed number has all 64 digits when its first digit is not zero. -/
theorem renders_radix_iff (hv : v < 2 ^ 256) :
    Renders ("0x" ++ toStrRadix16 v) v ↔ 16 ^ 63 ≤ v := by
  have hlength {n : ℕ} (hn : 0 < n) : (toStrRadix16 v).length ≤ n ↔ v < 16 ^ n := by
    rw [← String.length_toList, toStrRadix16, String.toList_ofList]
    exact Nat.length_toDigits_le_iff (by decide) hn
  constructor
  · intro h
    have hdigits := renders_length h
    by_contra hlow
    have hshort := (hlength (n := 63) (by decide)).mpr (by omega)
    omega
  · intro hlow
    refine ⟨toStrRadix16 v, rfl, ?_, ?_, ?_⟩
    · have hle := (hlength (n := 64) (by decide)).mpr (by norm_num at hv ⊢; exact hv)
      have hgt := mt (hlength (n := 63) (by decide)).mp (by omega)
      omega
    · rw [toStrRadix16, String.toList_ofList]
      exact toDigits_lower v
    · rw [hexDecode, toStrRadix16, String.toList_ofList]
      exact hexDecode_toDigits (n := 31) hlow (by norm_num at hv ⊢; exact hv)

theorem digits_bytesBe {n : ℕ} (hlow : 256 ^ n ≤ v) (hhigh : v < 256 ^ (n + 1)) :
    (Nat.digits 256 v).reverse.map UInt8.ofNat = bytesBe (n + 1) v := by
  have hbyte (x : ℕ) : UInt8.ofNat (x % 256) = UInt8.ofNat x := by
    apply UInt8.toNat_inj.mp
    simp only [UInt8.toNat_ofNat']
    omega
  induction n generalizing v with
  | zero =>
    rw [Nat.digits_of_lt 256 v (by omega) (by omega)]
    rfl
  | succ n ih =>
    have hpos : 0 < 256 ^ n := by positivity
    have hlow' : 256 ^ n ≤ v / 256 := by
      rw [pow_succ] at hlow
      omega
    have hhigh' : v / 256 < 256 ^ (n + 1) := by
      rw [pow_succ] at hhigh
      omega
    rw [Nat.digits_def' (by decide) (by omega), List.reverse_cons, List.map_append,
      ih hlow' hhigh', List.map_singleton, hbyte]
    rfl

theorem hexEncode_length (bytes : List UInt8) : (hexEncode bytes).length = 2 * bytes.length := by
  have hdecode := hexDecode_hexEncode bytes
  rw [← String.length_toList]
  exact hexDecodeChars_length hdecode

/-- The bytes of a number are 32 when the first of them is not zero. -/
theorem renders_bytes_iff (hv : v < 2 ^ 256) :
    Renders ("0x" ++ hexEncode (toBytesBe v)) v ↔ 2 ^ 248 ≤ v := by
  by_cases hlow : 2 ^ 248 ≤ v
  · have hbytes : toBytesBe v = bytesBe 32 v := by
      rw [toBytesBe, if_neg (by omega)]
      exact digits_bytesBe (n := 31) (by norm_num at hlow ⊢; exact hlow)
        (by norm_num at hv ⊢; exact hv)
    refine ⟨fun _ => hlow, fun _ => ⟨_, rfl, ?_, hexEncode_lower _, ?_⟩⟩
    · rw [hexEncode_length, hbytes, bytesBe_length]
    · rw [hexDecode_hexEncode, hbytes]
  · refine ⟨fun h => ?_, fun h => absurd h hlow⟩
    have hlength := renders_length h
    rw [hexEncode_length] at hlength
    have hshort : (toBytesBe v).length ≤ 31 := by
      rw [toBytesBe]
      split
      · decide
      · rw [List.length_map, List.length_reverse, Nat.digits_length_le_iff (by decide)]
        norm_num at hlow ⊢
        exact hlow
    omega

end Digits

section Logs

variable {D L : Type} {c : Cell} {p : CellParser}

/-- The 256-bit number after the op code of a log. -/
def logValue (c : Cell) : ℕ := bitsToNat ((c.bits.drop 32).take 256)

theorem logValue_lt (c : Cell) : logValue c < 2 ^ 256 :=
  (bitsToNat_lt _).trans_le (Nat.pow_le_pow_right (by decide) (by simp))

/-- Each of the four logs has the number after its op code. -/
theorem token_read {op : UInt32} {f : ℕ → Decoder L} {m : L}
    (h : (checkOpCode op >>= fun _ => load (loadUint 256) >>= f) c.parser = .ok (m, p)) :
    ∃ p', f (logValue c) p' = .ok (m, p) := by
  obtain ⟨_, p₁, hop, h⟩ := decoder_ok h
  obtain ⟨v, p₂, hv, h⟩ := decoder_ok h
  rw [checkOpCode_eq_ok hop] at hv
  obtain ⟨rfl, -⟩ := loadUint_eq_ok hv
  exact ⟨p₂, h⟩

theorem link_tokenId {m : LogITSLinkTokenStartedMessage}
    (h : LogITSLinkTokenStartedMessage.decode c.parser = .ok (m, p)) :
    m.tokenId = logValue c := by
  obtain ⟨p₁, h⟩ := token_read h
  obtain ⟨chain, p₂, -, h⟩ := decoder_ok h
  obtain ⟨sourceCell, p₃, -, h⟩ := decoder_ok h
  obtain ⟨source, p₄, -, h⟩ := decoder_ok h
  obtain ⟨a, p₅, -, h⟩ := decoder_ok h
  obtain ⟨address, p₆, -, h⟩ := decoder_ok h
  obtain ⟨kind, p₇, -, h⟩ := decoder_ok h
  obtain ⟨managerType, p₈, -, h⟩ := decoder_ok h
  cases h
  rfl

theorem transfer_tokenId {m : LogITSInterchainTransferMessage}
    (h : LogITSInterchainTransferMessage.decode c.parser = .ok (m, p)) :
    m.tokenId = logValue c := by
  obtain ⟨p₁, h⟩ := token_read h
  obtain ⟨senderCell, p₂, -, h⟩ := decoder_ok h
  obtain ⟨sender, p₃, -, h⟩ := decoder_ok h
  obtain ⟨a, p₄, -, h⟩ := decoder_ok h
  obtain ⟨chain, p₅, -, h⟩ := decoder_ok h
  obtain ⟨address, p₆, -, h⟩ := decoder_ok h
  obtain ⟨jettonAmount, p₇, -, h⟩ := decoder_ok h
  obtain ⟨dataCell, p₈, -, h⟩ := decoder_ok h
  cases h
  rfl

theorem deployment_tokenId {m : LogITSInterchainTokenDeploymentStartedMessage}
    (h : LogITSInterchainTokenDeploymentStartedMessage.decode c.parser = .ok (m, p)) :
    m.tokenId = logValue c := by
  obtain ⟨p₁, h⟩ := token_read h
  obtain ⟨name, p₂, -, h⟩ := decoder_ok h
  obtain ⟨symbol, p₃, -, h⟩ := decoder_ok h
  obtain ⟨decimals, p₄, -, h⟩ := decoder_ok h
  obtain ⟨minter, p₅, -, h⟩ := decoder_ok h
  obtain ⟨chain, p₆, -, h⟩ := decoder_ok h
  cases h
  rfl

theorem rotated_signersHash {m : LogSignersRotatedMessage}
    (h : LogSignersRotatedMessage.decode c.parser = .ok (m, p)) :
    m.signersHash = "0x" ++ hexEncode (toBytesBe (logValue c)) := by
  obtain ⟨_, p₁, hop, h⟩ := decoder_ok h
  obtain ⟨signers, p₂, href, h⟩ := decoder_ok h
  obtain ⟨v, p₃, hv, h⟩ := decoder_ok h
  rw [nextReference_eq_ok href, checkOpCode_eq_ok hop] at hv
  obtain ⟨rfl, -⟩ := loadUint_eq_ok hv
  obtain ⟨epoch, p₄, -, h⟩ := decoder_ok h
  split at h
  · cases h
    rfl
  · cases h

end Logs

section Events

variable {D L : Type}

/-- The identifier that an event shows. -/
def identifier : Event → Option String
  | .itsLinkTokenStarted _ _ tokenId _ _ _ _ => some tokenId
  | .itsInterchainTransfer _ _ _ tokenSpent _ _ _ => tokenSpent.tokenId
  | .itsInterchainTokenDeploymentStarted _ _ _ token => some token.id
  | .signersRotated common _ => common.metadata.bind (·.signersHash)
  | _ => none

/-- The events of this log show its number in full exactly from this bound on. -/
def ShownFrom (bound : ℕ) (lib : Libraries D) (decode : Decoder L)
    (event : LogParser L → Option String → Outcome Event) (text : String) (c : Cell) : Prop :=
  ∀ m p mid e, fromBocB64 lib.fromBocB64 decode text = .ok m → p.log = some m →
    event p mid = .ok e →
    ∃ shown, identifier e = some shown ∧ (Renders shown (logValue c) ↔ bound ≤ logValue c)

variable {lib : Libraries D} {text : String} {c : Cell}

theorem getLog_ok {p : LogParser L} {log m : L} (hlog : p.log = some m)
    (h : p.getLog = .ok log) : log = m := by
  rw [LogParser.getLog, hlog] at h
  exact (Except.ok.inj h).symm

theorem link_shown {m : LogITSLinkTokenStartedMessage} {p : LogParser _} {mid : Option String}
    {e : Event} (hboc : lib.fromBocB64 text = .ok c)
    (hm : fromBocB64 lib.fromBocB64 LogITSLinkTokenStartedMessage.decode text = .ok m)
    (hp : p.log = some m) (h : ParserITSLinkTokenStarted.event lib p mid = .ok e) :
    identifier e = some ("0x" ++ toStrRadix16 (logValue c)) := by
  obtain ⟨q, hdecode⟩ := (fromBocB64_eq_ok hboc).mp hm
  obtain ⟨id, -, h⟩ := bind_eq_ok.mp h
  obtain ⟨log, hlog, h⟩ := bind_eq_ok.mp h
  cases pure_eq_ok.mp h
  rw [identifier, getLog_ok hp hlog, link_tokenId hdecode]

theorem transfer_shown {m : LogITSInterchainTransferMessage} {p : LogParser _}
    {mid : Option String} {e : Event} (hboc : lib.fromBocB64 text = .ok c)
    (hm : fromBocB64 lib.fromBocB64 LogITSInterchainTransferMessage.decode text = .ok m)
    (hp : p.log = some m) (h : ParserITSInterchainTransfer.event lib p mid = .ok e) :
    identifier e = some ("0x" ++ toStrRadix16 (logValue c)) := by
  obtain ⟨q, hdecode⟩ := (fromBocB64_eq_ok hboc).mp hm
  obtain ⟨id, -, h⟩ := bind_eq_ok.mp h
  obtain ⟨log, hlog, h⟩ := bind_eq_ok.mp h
  cases pure_eq_ok.mp h
  rw [identifier, getLog_ok hp hlog, transfer_tokenId hdecode]

theorem deployment_shown {m : LogITSInterchainTokenDeploymentStartedMessage} {p : LogParser _}
    {mid : Option String} {e : Event} (hboc : lib.fromBocB64 text = .ok c)
    (hm : fromBocB64 lib.fromBocB64 LogITSInterchainTokenDeploymentStartedMessage.decode text =
      .ok m)
    (hp : p.log = some m)
    (h : ParserITSInterchainTokenDeploymentStarted.event lib p mid = .ok e) :
    identifier e = some ("0x" ++ toStrRadix16 (logValue c)) := by
  obtain ⟨q, hdecode⟩ := (fromBocB64_eq_ok hboc).mp hm
  obtain ⟨id, -, h⟩ := bind_eq_ok.mp h
  obtain ⟨log, hlog, h⟩ := bind_eq_ok.mp h
  cases pure_eq_ok.mp h
  rw [identifier, getLog_ok hp hlog, deployment_tokenId hdecode]

theorem rotated_shown {m : LogSignersRotatedMessage} {p : LogParser _} {e : Event}
    (hboc : lib.fromBocB64 text = .ok c)
    (hm : fromBocB64 lib.fromBocB64 LogSignersRotatedMessage.decode text = .ok m)
    (hp : p.log = some m) (h : ParserSignersRotated.event lib p = .ok e) :
    identifier e = some ("0x" ++ hexEncode (toBytesBe (logValue c))) := by
  obtain ⟨q, hdecode⟩ := (fromBocB64_eq_ok hboc).mp hm
  obtain ⟨mid, -, h⟩ := bind_eq_ok.mp h
  obtain ⟨id, -, h⟩ := bind_eq_ok.mp h
  obtain ⟨log, hlog, h⟩ := bind_eq_ok.mp h
  cases pure_eq_ok.mp h
  rw [identifier, Option.bind_some, getLog_ok hp hlog, rotated_signersHash hdecode]

/-- Token ids are shown in full exactly when their first digit is not zero, signer hashes when
their first byte is not. -/
theorem identifiers_render_iff (lib : Libraries D) (hboc : lib.fromBocB64 text = .ok c) :
    ShownFrom (16 ^ 63) lib LogITSLinkTokenStartedMessage.decode
      (ParserITSLinkTokenStarted.event lib) text c ∧
    ShownFrom (16 ^ 63) lib LogITSInterchainTransferMessage.decode
      (ParserITSInterchainTransfer.event lib) text c ∧
    ShownFrom (16 ^ 63) lib LogITSInterchainTokenDeploymentStartedMessage.decode
      (ParserITSInterchainTokenDeploymentStarted.event lib) text c ∧
    ShownFrom (2 ^ 248) lib LogSignersRotatedMessage.decode
      (fun p _ => ParserSignersRotated.event lib p) text c := by
  have hradix := renders_radix_iff (logValue_lt c)
  refine ⟨?_, ?_, ?_, ?_⟩
  · intro m p mid e hm hp he
    exact ⟨_, link_shown hboc hm hp he, hradix⟩
  · intro m p mid e hm hp he
    exact ⟨_, transfer_shown hboc hm hp he, hradix⟩
  · intro m p mid e hm hp he
    exact ⟨_, deployment_shown hboc hm hp he, hradix⟩
  · intro m p mid e hm hp he
    exact ⟨_, rotated_shown hboc hm hp he, renders_bytes_iff (logValue_lt c)⟩

end Events

section Samples

def rotatedCell (signersHash : ℕ) : Cell :=
  builtCell (natToBits 32 opSignersRotatedLog.toNat ++
    (natToBits 256 signersHash ++ natToBits 256 1)) [emptyCell]

/-- The signer hashes 8000...0 and 0000...1. -/
def rotatedText : String :=
  "te6cckEBAgEASQABiAAAACqAAAAAAAAAAAAAAAAAAAAAAAAAAAAAAAAAAAAAAAAAAAAAAAAAAAAAAAAAAAAAAAAAAA" ++
  "AAAAAAAAAAAAAAAAABAQAAbvY4ow=="

def paddedRotatedText : String :=
  "te6cckEBAgEASQABiAAAACoAAAAAAAAAAAAAAAAAAAAAAAAAAAAAAAAAAAAAAAAAAQAAAAAAAAAAAAAAAAAAAAAAAAAA" ++
  "AAAAAAAAAAAAAAAAAAABAQAAvSXH3Q=="

def renderBoc (text : String) : Except CellError Cell :=
  if text = rotatedText then .ok (rotatedCell (2 ^ 255))
  else if text = paddedRotatedText then .ok (rotatedCell 1)
  else sampleBoc text

def renderLibraries : Libraries ℕ := { sampleLibraries with fromBocB64 := renderBoc }

def rotatedLog (text : String) (log : LogSignersRotatedMessage) :
    LogParser LogSignersRotatedMessage :=
  { tx := logTransaction 1 1 0 text, allowedAddress := account 1, log := some log }

def transferLog (log : LogITSInterchainTransferMessage) :
    LogParser LogITSInterchainTransferMessage :=
  { tx := logTransaction 3 3 0 transferText, allowedAddress := account 3, log := some log }

theorem rotatedCell_ok (v : ℕ) :
    (rotatedCell v).bits = natToBits 32 opSignersRotatedLog.toNat ++
        (natToBits 256 v ++ natToBits 256 1) ∧
      (rotatedCell v).references = [emptyCell] :=
  builtCell_ok (by simp) (by simp)

theorem rotatedCell_value {v : ℕ} (hv : v < 2 ^ 256) : logValue (rotatedCell v) = v := by
  rw [logValue, (rotatedCell_ok v).1, List.drop_left' (natToBits_length _ _),
    List.take_left' (natToBits_length _ _), bitsToNat_natToBits hv]

/-- A well-formed log of rotated signers is decoded. -/
theorem rotated_decode {c signers : Cell} {refs : List Cell} {hash epoch : List Bool}
    (hbits : c.bits = natToBits 32 opSignersRotatedLog.toNat ++ (hash ++ epoch))
    (hrefs : c.references = signers :: refs) (hhash : hash.length = 256)
    (hlength : 256 ≤ epoch.length) (hepoch : bitsToNat (epoch.take 256) < 2 ^ 64) :
    ∃ r, LogSignersRotatedMessage.decode c.parser = .ok r := by
  have hall : 256 ≤ (hash ++ epoch).length := by
    rw [List.length_append]
    omega
  rw [LogSignersRotatedMessage.decode, Cell.parser, hbits, hrefs]
  simp only [decoder_bind, checkOpCode_ok, ok_bind, load_nextReference, load_loadUint hall,
    List.drop_left' hhash, load_loadUint hlength, if_pos hepoch]
  exact ⟨_, rfl⟩

theorem rotatedCell_decode (v : ℕ) :
    ∃ r, LogSignersRotatedMessage.decode (rotatedCell v).parser = .ok r := by
  refine rotated_decode (rotatedCell_ok v).1 (rotatedCell_ok v).2 (by simp) (by simp) ?_
  rw [List.take_of_length_le (by simp), bitsToNat_natToBits (by norm_num)]
  norm_num

theorem rotatedLog_event (text : String) (log : LogSignersRotatedMessage) :
    ∃ e, ParserSignersRotated.event renderLibraries (rotatedLog text log) = .ok e := by
  have hhash : renderLibraries.base64Decode (hashText 1) = .ok (List.replicate 32 1) := by
    dsimp only [renderLibraries, sampleLibraries]
    rw [List.find?_cons_of_pos (by simp)]
  have hid : hashToMessageId renderLibraries (hashText 1) =
      .ok ("0x" ++ (hexEncode (List.replicate 32 1)).toLower) := by
    rw [hashToMessageId, hhash]
  have hmid : ParserSignersRotated.messageId renderLibraries (rotatedLog text log) =
      .ok (some ("0x" ++ (hexEncode (List.replicate 32 1)).toLower)) := by
    rw [ParserSignersRotated.messageId]
    exact bind_eq_ok.mpr ⟨_, hid, rfl⟩
  rw [ParserSignersRotated.event, hmid]
  exact ⟨_, rfl⟩

theorem renderLibraries_boc : renderLibraries.fromBocB64 = renderBoc := rfl

theorem renderBoc_rotated :
    renderLibraries.fromBocB64 rotatedText = .ok (rotatedCell (2 ^ 255)) := by
  rw [renderLibraries_boc, renderBoc, if_pos rfl]

theorem renderBoc_padded :
    renderLibraries.fromBocB64 paddedRotatedText = .ok (rotatedCell 1) := by
  rw [renderLibraries_boc, renderBoc, if_neg (by decide +kernel), if_pos rfl]

theorem renderBoc_transfer :
    renderLibraries.fromBocB64 transferText = .ok (transferCell (16 ^ 63)) := by
  rw [renderLibraries_boc, renderBoc, if_neg (by decide), if_neg (by decide), sampleBoc, if_pos rfl]

/-- The signers hash 8000...0 is shown in full. -/
theorem identifiers_render_full_width :
    ∃ m e shown,
      fromBocB64 renderLibraries.fromBocB64 LogSignersRotatedMessage.decode rotatedText = .ok m ∧
      ParserSignersRotated.event renderLibraries (rotatedLog rotatedText m) = .ok e ∧
      identifier e = some shown ∧ Renders shown (2 ^ 255) := by
  have hvalue : logValue (rotatedCell (2 ^ 255)) = 2 ^ 255 := rotatedCell_value (by norm_num)
  obtain ⟨⟨m, p⟩, hdecode⟩ := rotatedCell_decode (2 ^ 255)
  have hm := (fromBocB64_eq_ok renderBoc_rotated).mpr ⟨p, hdecode⟩
  obtain ⟨e, he⟩ := rotatedLog_event rotatedText m
  obtain ⟨shown, hshown, hiff⟩ :=
    (identifiers_render_iff renderLibraries renderBoc_rotated).2.2.2 m _ none e hm rfl he
  rw [hvalue] at hiff
  exact ⟨m, e, shown, hm, he, hshown, hiff.mpr (by norm_num)⟩

/-- The token id 7 is shown as `0x7`. -/
theorem leading_digit_dropped :
    ∃ m e, fromBocB64 renderLibraries.fromBocB64 LogITSInterchainTransferMessage.decode
        transferText = .ok m ∧
      ParserITSInterchainTransfer.event renderLibraries (transferLog m) (some "0x2a-0") = .ok e ∧
      identifier e = some "0x7" ∧ logValue (transferCell (16 ^ 63)) = 7 ∧ ¬ Renders "0x7" 7 := by
  have hvalue : logValue (transferCell (16 ^ 63)) = 7 := by
    have hbits : (transferCell (16 ^ 63)).bits = natToBits 32 opInterchainTransferLog.toNat ++
      (natToBits 256 7 ++ natToBits 256 5) := rfl
    rw [logValue, hbits, List.drop_left' (natToBits_length _ _),
      List.take_left' (natToBits_length _ _), bitsToNat_natToBits (by norm_num)]
  have hh : 16 ^ 63 < 2 ^ 256 := by norm_num
  obtain ⟨m, hm, -⟩ := (fromBocB64_address_iff hh renderBoc_transfer
    (transfer_decode hh (transferCell_log _))).mpr le_rfl
  obtain ⟨e, he⟩ : ∃ e, ParserITSInterchainTransfer.event renderLibraries (transferLog m)
      (some "0x2a-0") = .ok e := ⟨_, rfl⟩
  have hshown := transfer_shown renderBoc_transfer hm rfl he
  rw [hvalue] at hshown
  refine ⟨m, e, hm, he, hshown, hvalue, fun h => ?_⟩
  exact absurd ((renders_radix_iff (show 7 < 2 ^ 256 by norm_num)).mp h) (by norm_num)

/-- The signers hash 1 is shown as `0x01`. -/
theorem leading_bytes_dropped :
    ∃ m e, fromBocB64 renderLibraries.fromBocB64 LogSignersRotatedMessage.decode
        paddedRotatedText = .ok m ∧
      ParserSignersRotated.event renderLibraries (rotatedLog paddedRotatedText m) = .ok e ∧
      identifier e = some "0x01" ∧ logValue (rotatedCell 1) = 1 ∧ ¬ Renders "0x01" 1 := by
  have hvalue : logValue (rotatedCell 1) = 1 := rotatedCell_value (by norm_num)
  obtain ⟨⟨m, p⟩, hdecode⟩ := rotatedCell_decode 1
  have hm := (fromBocB64_eq_ok renderBoc_padded).mpr ⟨p, hdecode⟩
  obtain ⟨e, he⟩ := rotatedLog_event paddedRotatedText m
  have hshown := rotated_shown renderBoc_padded hm rfl he
  rw [hvalue] at hshown
  refine ⟨m, e, hm, he, hshown, hvalue, fun h => ?_⟩
  exact absurd ((renders_bytes_iff (show 1 < 2 ^ 256 by norm_num)).mp h) (by norm_num)

end Samples

end RenderedIds
